import TableAlgebra.Command.Parser
import TableAlgebra.Session

/-!
# Execution of commands

A command is read and carried out. Either it answers, and the session changes as it says, or it
fails and the session stays as it was, save that a table that cannot be written in full leaves the
beginning of it in its file. An assignment stores a result that has rows; a result without rows is
not stored, and drops what the name was bound to.
-/

namespace TableAlgebra

open Command (Operation Statement)

/-- The answer to a command: a message, the table it is about, and whether the session is to end. -/
structure Reply where
  message : Text
  table : Option Table := none
  stop : Bool := false
  deriving Repr, DecidableEq

namespace Session

def evaluate (s : Session) : Operation → Except Error Table
  | .rows t c op literal => s.rows t c op literal
  | .columns t cs => s.columns t cs
  | .product l r => s.product l r
  | .join l r pairs outer => if outer then s.outerJoin l r pairs else s.join l r pairs
  | .naturalJoin l r outer => s.naturalJoin l r outer
  | .orderBy t c => s.orderBy t c

/-- Binds a name to a result with rows, and drops it for one without. -/
def assign (s : Session) (target : Text) (t : Table) : Reply × Session :=
  if t.rows.isEmpty then
    ({ message := target ++ " is an empty table. It has not been added to the database.",
       table := some t }, s.remove target)
  else
    ({ message := target ++ " now holds " ++ .ofNat t.rows.length ++ " row(s).", table := some t },
      s.store target t)

/-- The message of a referential check that leaves some rows over, or none. -/
def checkMessage (source target : Text) (missing : Table) : Except Error Text :=
  if missing.rows.isEmpty then .ok ("Yes: " ++ source ++ " references " ++ target)
  else missing.write.map fun text =>
    "These rows in " ++ source ++ " do not reference " ++ target ++ ":\n" ++ text

/-- Goes over to another session along with an answer; an error stays in this one. -/
def settle (s : Session) : Except Error (Reply × Session) → Except Error Reply × Session
  | .ok (reply, s') => (.ok reply, s')
  | .error e => (.error e, s)

def run (s : Session) : Statement → Except Error Reply × Session
  | .define name tags =>
    s.settle ((s.define name tags).map fun (t, s) =>
      ({ message := name ++ " is now defined.", table := some t }, s))
  | .load name source headed =>
    s.settle ((s.load headed name source).map fun (t, s) =>
      ({ message := "Loaded " ++ .ofNat t.rows.length ++ " row(s) into " ++ name ++ ".",
         table := some t }, s))
  | .save name target =>
    let (result, s') := s.save name target
    (result.map fun _ => { message := "Saved " ++ name ++ " to " ++ target ++ "." }, s')
  | .print name =>
    ((s.table name).bind fun t => t.write.map fun text => { message := text, table := some t }, s)
  | .check name c ref rc =>
    let source := name ++ "(" ++ c.text ++ ")"
    let target := ref ++ "(" ++ rc.text ++ ")"
    ((s.check name c ref rc).bind fun missing =>
      (checkMessage source target missing).map fun text =>
        { message := text, table := some missing }, s)
  | .remove name =>
    let defined := (s.tables.find? name).isSome
    (.ok { message := name ++ if defined then " removed." else " is not defined." }, s.remove name)
  | .clear => (.ok { message := "All tables removed." }, s.clear)
  | .exit => (.ok { message := "Exiting.", stop := true }, s)
  | .assign target op => s.settle ((s.evaluate op).map (s.assign target))

def execute (s : Session) (command : Text) : Except Error Reply × Session :=
  match Command.statement command with
  | .ok statement => s.run statement
  | .error e => (.error e, s)

/-! ### Scripts -/

/-- The line holds a command, and not just blanks or a comment. -/
def isCommand (line : Text) : Bool := !line.strip.isEmpty && !(("--" : Text).isPrefixOf line.strip)

/-- Carries out commands one after the other, up to one that ends the session or fails. The
answers are lost if one fails, but not what the others before it did. -/
def runAll (s : Session) : List Text → Except Error (List Reply) × Session
  | [] => (.ok [], s)
  | command :: commands =>
    match s.execute command with
    | (.error e, s') => (.error e, s')
    | (.ok reply, s') =>
      if reply.stop then (.ok [reply], s')
      else
        let (replies, s'') := s'.runAll commands
        (replies.map (reply :: ·), s'')

def commands (script : Text) : List Text := script.splitLines.filter isCommand

def runScript (s : Session) (script : Text) : Except Error (List Reply) × Session :=
  s.runAll (commands script)

/-! ### Laws -/

theorem execute_of_error {s : Session} {command : Text} {e : Error}
    (h : Command.statement command = .error e) : s.execute command = (.error e, s) := by
  rw [execute, h]

theorem execute_of_ok {s : Session} {command : Text} {statement : Statement}
    (h : Command.statement command = .ok statement) : s.execute command = s.run statement := by
  rw [execute, h]

end Session

end TableAlgebra
