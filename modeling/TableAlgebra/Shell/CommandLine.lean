import TableAlgebra.Shell
import TableAlgebra.Shell.Arguments

/-!
# The command line

With commands or a script the session runs them and prints all answers at the end; without, the
shell takes lines from the input until it ends. Notices and errors go to the other output.
-/

namespace TableAlgebra.Shell

open Storage (Files)

/-- What a run prints, its status if it sets one, the error that breaks it off, and the session it
leaves. -/
structure Outcome where
  output : Text := []
  log : Text := []
  status : Option Nat := none
  failure : Option Error := none
  session : Session

/-- The lines of the log: all notices, or only the warnings. -/
def logLines (verbose : Bool) (notices : List Notice) : Text :=
  (notices.filter fun n => verbose || n.isWarning).flatMap fun n => printed n.line

/-! ### Batches -/

/-- Runs a script. Its answers print once all of it has run; an error that the session answers for
is printed instead, any other one breaks the run off. -/
def runBatch (verbose : Bool) (s : Session) (script : Text) : Outcome :=
  let log := logLines verbose (s.noticesOfAll (Session.commands script))
  match s.runScript script with
  | (.ok replies, session) =>
    { output := replies.flatMap fun r => printMessage r.message, log, status := some 0, session }
  | (.error e, session) =>
    if e.isReported then
      { log := log ++ printed ("Error: " ++ e.message), status := some 1, session }
    else { log, failure := some e, session }

/-- Runs the script in a file. -/
def runScriptFile (verbose : Bool) (s : Session) (path : Text) : Outcome :=
  match Storage.Path.canonical path with
  | .error e => { failure := some e, session := s }
  | .ok file =>
    match s.files.read file with
    | .error cause =>
      let fault : Storage.PathFault := ⟨cause, path⟩
      { log := printed ("Error: " ++ fault.message), status := some 1, session := s }
    | .ok bytes =>
      match Text.Utf8.decode bytes with
      | .error fault => { failure := some (.undecodable fault), session := s }
      | .ok text => runBatch verbose s text.unifyLineEnds

/-! ### The interactive shell -/

/-- Takes lines until there are no more, or the shell is left. -/
def runLines (verbose : Bool) (sh : Shell) : List Text → Outcome
  | [] => { output := prompt ++ "\n" ++ farewell, session := sh.quit.session }
  | line :: lines =>
    let log := logLines verbose (sh.lineNotices line)
    match sh.handleLine line with
    | (.error e, sh') => { output := prompt, log, failure := some e, session := sh'.session }
    | (.ok text, sh') =>
      if sh'.running then
        let rest := runLines verbose sh' lines
        { rest with output := prompt ++ text ++ rest.output, log := log ++ rest.log }
      else { output := prompt ++ text, log, session := sh'.session }

def inputLines (input : Text) : List Text := input.textLines

def runInteractive (verbose : Bool) (s : Session) (input : Text) : Outcome :=
  let outcome := runLines verbose { session := s } (inputLines input)
  { outcome with output := printed banner ++ outcome.output }

/-! ### All together -/

def usage : Text :=
  "usage: [-h] [-d DATA_DIR] [-e COMMAND] [-f SCRIPT] [-v] [--legacy-comparators]"

def Options.session (o : Options) (files : Files) : Session :=
  { dataDir := o.dataDir, legacy := o.legacy, files }

def given (option : Option Text) : Option Text := option.filter fun s => !s.isEmpty

/-- Runs a command line in a tree of files, with an input. -/
def runOptions (o : Options) (files : Files) (input : Text) : Outcome :=
  let s := o.session files
  match given o.command, given o.script with
  | some command, _ => runBatch o.verbose s command
  | none, some path => runScriptFile o.verbose s path
  | none, none => runInteractive o.verbose s input

def runArguments (arguments : List Text) (files : Files) (input : Text) : Outcome :=
  match Request.ofArguments arguments with
  | .run o => runOptions o files input
  | .help => { output := printed usage, status := some 0, session := { files } }
  | .invalid => { log := printed usage, status := some 2, session := { files } }

end TableAlgebra.Shell
