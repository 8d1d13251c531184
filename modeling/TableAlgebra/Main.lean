import TableAlgebra.Shell.CommandLine

/-!
# The program

The outer layer: it looks up on disk the paths that commands name, runs the command line on them,
and writes back the files that have changed.
-/

namespace TableAlgebra.Program

open Storage (Files Location Node)

/-! ### Files on disk -/

/-- The places that a path leads through. -/
def visited (start : Location) : List Text → List Location
  | [] => []
  | name :: names =>
    if name = "." then visited start names
    else if name = ".." then visited start.dropLast names
    else (start ++ [name]) :: visited (start ++ [name]) names

/-- The path of a place on disk, if it is the path of a string. -/
def diskPath? (l : Location) : Option String := Text.string? ("/" ++ Text.joined "/" l)

/-- What is on disk at a path. -/
def look (path : String) : IO (Option Node) := do
  try
    return some (.file (← IO.FS.readBinFile path))
  catch
    | .inappropriateType .. => return some .directory
    | _ => return none

def mayWrite (path : String) : IO Bool := do
  try
    let _ ← IO.FS.Handle.mk path .append
    return true
  catch _ => return false

def takeUpPlace (fs : Files) (l : Location) : IO Files := do
  let some path := diskPath? l | return fs
  match ← look path with
  | none => return fs
  | some .directory => return fs.put l .directory
  | some (.file content) =>
    let fs := fs.put l (.file content)
    if ← mayWrite path then return fs else return { fs with readOnly := l :: fs.readOnly }

def takeUp (fs : Files) (path : Text) : IO Files := do
  let some path := (Storage.Path.canonical path).toOption | return fs
  let start := if Storage.Path.isAbsolute path then [] else fs.workDir
  (visited start (Storage.Path.names path)).foldlM takeUpPlace fs

def takeUpAll (paths : List Text) : IO Files := do
  let workDir := Storage.Path.names (toString (← IO.currentDir) : String)
  let above := (List.range workDir.length).map fun n => workDir.take (n + 1)
  let start : Files := { nodes := above.map fun l => (l, .directory), workDir }
  paths.foldlM takeUp start

def putBack (before after : Files) : IO Unit := do
  for (l, n) in after.nodes do
    match n, diskPath? l with
    | .file content, some path =>
      unless before.node? l = some n do IO.FS.writeBinFile path content
    | _, _ => pure ()

/-- The paths that commands name, as seen from the data directory. -/
def pathsOf (dataDir : Text) (commands : List Text) : List Text :=
  commands.filterMap fun command =>
    match Command.statement command with
    | .ok statement => statement.file?.map (Storage.Path.resolve dataDir)
    | .error _ => none

/-! ### Running -/

/-- A text for the terminal: a surrogate shows as the replacement character. -/
def shown (t : Text) : String := String.ofList (t.map fun p => p.char?.getD '\ufffd')

def finish (before : Files) (o : Shell.Outcome) : IO UInt32 := do
  IO.print (shown o.output)
  IO.eprint (shown o.log)
  putBack before o.session.files
  match o.failure with
  | some e =>
    IO.eprintln (shown e.message)
    return 1
  | none => return (o.status.getD 0).toUInt32

/-- Takes lines from the terminal until they end or the shell is left. -/
partial def interact (verbose : Bool) (sh : Shell) : IO Unit := do
  IO.print (shown Shell.prompt)
  (← IO.getStdout).flush
  let line ← (← IO.getStdin).getLine
  if line.isEmpty then IO.print (shown ("\n" ++ Shell.farewell))
  else
    let line : Text := line
    let files ← takeUpAll (pathsOf sh.session.dataDir [line.strip])
    let sh := { sh with session := { sh.session with files } }
    IO.eprint (shown (Shell.logLines verbose (sh.lineNotices line)))
    let (outcome, sh') := sh.handleLine line
    putBack files sh'.session.files
    match outcome with
    | .ok text =>
      IO.print (shown text)
      if sh'.running then interact verbose sh'
    | .error e => IO.eprintln (shown e.message)

/-- The text of the script that is to run, if there is one. -/
def scriptText (o : Shell.Options) : IO Text := do
  match Shell.given o.command, (Shell.given o.script).bind Text.string? with
  | some command, _ => return command
  | none, some path =>
    match Text.Utf8.decode (← IO.FS.readBinFile path) with
    | .ok text => return text
    | .error _ => return []
  | none, none => return []

def runBatch (o : Shell.Options) : IO UInt32 := do
  let text ← try scriptText o catch _ => pure []
  let paths := pathsOf o.dataDir (Session.commands text)
  let files ← takeUpAll ((Shell.given o.script).toList ++ paths)
  finish files (Shell.runOptions o files [])

def run (arguments : List String) : IO UInt32 := do
  match Shell.Request.ofArguments (arguments.map Text.ofString) with
  | .run o =>
    if (Shell.given o.command).isSome || (Shell.given o.script).isSome then runBatch o
    else
      IO.print (shown (Shell.printed Shell.banner))
      interact o.verbose { session := o.session {} }
      return 0
  | .help =>
    IO.println (shown Shell.usage)
    return 0
  | .invalid =>
    IO.eprintln (shown Shell.usage)
    return 2

end TableAlgebra.Program

def main (arguments : List String) : IO UInt32 := TableAlgebra.Program.run arguments
