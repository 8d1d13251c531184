import TableAlgebra.Session.Notice
import TableAlgebra.Table.View

/-!
# The shell

The shell takes one line at a time and prints what comes of it. A line that starts with a dot is
for the shell itself, any other one that is not blank or a comment goes to the session. Leaving
the shell drops all tables. The shell prints every failure of a command of the session; of its own
commands it prints only the failures that a session answers for, any other one breaks it off.
-/

namespace TableAlgebra

structure Shell where
  session : Session
  running : Bool := true
  deriving DecidableEq

namespace Shell

def banner : Text :=
  "\nRelDB - relational algebra over in-memory tables\n" ++
  "Type .help for commands. Example:\n" ++
  "  define people (int, string)\n" ++
  "  load headed people from people.csv\n"

def prompt : Text := "reldb> "

/-- The commands of the shell and of the session. -/
def help : Text :=
  "\nShell commands:\n" ++
  "  .help             This message\n" ++
  "  .tables           Stored tables and their sizes\n" ++
  "  .schema <table>   Column names and types\n" ++
  "  .count <table>    Number of rows\n" ++
  "  .show <table>     Aligned view of a table\n" ++
  "  .clear            Clear the screen\n" ++
  "  .quit / .exit     Leave the shell\n" ++
  "\nEngine commands:\n" ++
  "  define T (int, string, ...)          Define an empty table\n" ++
  "  load [headed] T from FILE            Replace T with the rows of FILE\n" ++
  "  save T FILE                          Write T to FILE\n" ++
  "  print T                              Print T\n" ++
  "  check T1(col) references T2(col)     Rows of T1 with no match in T2\n" ++
  "  remove T / clear                     Drop one / all tables\n" ++
  "  exit                                 Leave the shell\n" ++
  "\nAssignments (empty results are not stored):\n" ++
  "  R = rows(T, col, <|<=|==|>=|>, value)\n" ++
  "  R = columns(T, col, ...)\n" ++
  "  R = product(T1, T2)\n" ++
  "  R = [outer] join(T1, T2, col1, col2, ...)\n" ++
  "  R = [outer] naturaljoin(T1, T2)\n" ++
  "  R = orderby(T, col)\n" ++
  "\nA column is an index (from 0) or a header name.\n"

def printed (text : Text) : Text := text ++ "\n"

def padTo (width : Nat) (text : Text) : Text :=
  text ++ List.replicate (width - text.length) (.char ' ')

/-- Leaves the shell: the tables go. -/
def quit (sh : Shell) : Shell := { session := sh.session.clear, running := false }

def farewell : Text := printed "Goodbye!"

/-! ### Commands of the shell -/

/-- One line for each table, in the order of their names. -/
def tableList (s : Session) : Except Error Text :=
  if s.tables.names.isEmpty then .ok (printed "No tables defined.")
  else
    (s.tables.names.mapM fun name => (s.count name).map fun n =>
      printed ("  " ++ name ++ " (" ++ .ofNat n ++ " rows)")).map List.flatten

/-- One line for each column of a table: position, name and type. -/
def schemaLines (name : Text) (t : Table) : Except Error Text :=
  t.describe.map fun columns =>
    printed (name ++ " (" ++ .ofNat t.rows.length ++ " rows)") ++
      (columns.mapIdx fun i c =>
        let label := if c.1.isEmpty then "-" else c.1
        printed ("  " ++ padTo 4 (.ofNat i) ++ " " ++ padTo 20 label ++ " " ++ c.2.tag)).flatten

def countLine (name : Text) (t : Table) : Except Error Text :=
  .ok (printed (name ++ ": " ++ .ofNat t.rows.length ++ " rows"))

def viewLines (_ : Text) (t : Table) : Except Error Text :=
  (t.viewWithin Table.viewLimit).map printed

/-- Prints an error that the session answers for; any other one stays. -/
def reporting : Except Error Text → Except Error Text
  | .ok text => .ok text
  | .error e => if e.isReported then .ok (printed ("Error: " ++ e.message)) else .error e

/-- What a command of the shell prints about a table that it needs the name of. -/
def aboutTable (s : Session) (command argument : Text)
    (describe : Text → Table → Except Error Text) : Except Error Text :=
  if argument.isEmpty then .ok (printed ("Usage: " ++ command ++ " <table>"))
  else reporting ((s.table argument).bind (describe argument))

/-- Splits a line at its first space. -/
def splitCommand (line : Text) : Text × Text :=
  let name := line.takeWhile fun p => p != .char ' '
  (name, Text.strip (line.drop (name.length + 1)))

/-- Carries out a line that starts with a dot. -/
def runDotCommand (sh : Shell) (line : Text) : Except Error Text × Shell :=
  let (name, argument) := splitCommand line
  match name.lower.string? with
  | some ".help" => (.ok (printed help), sh)
  | some ".tables" => (tableList sh.session, sh)
  | some ".schema" => (aboutTable sh.session ".schema" argument schemaLines, sh)
  | some ".count" => (aboutTable sh.session ".count" argument countLine, sh)
  | some ".show" => (aboutTable sh.session ".show" argument viewLines, sh)
  | some ".clear" => (.ok [], sh)
  | some ".quit" | some ".exit" => (.ok farewell, sh.quit)
  | _ => (.ok (printed ("No such shell command: " ++ name ++ " (try .help)")), sh)

/-! ### Commands of the session -/

/-- The message without the line feeds at its end, as a line; no message prints nothing. -/
def printMessage (message : Text) : Text :=
  if message.isEmpty then [] else printed (message.dropEndWhile (· = '\n'))

/-- What an error prints. One that the session does not answer for is only named. -/
def printError (e : Error) : Text :=
  if e.isReported then printed ("Error: " ++ e.message)
  else
    match e with
    | .unencodable _ => printed "Unexpected error: UnicodeEncodeError"
    | _ => printed "Unexpected error: ValueError"

/-- Carries out a command of the session. -/
def runCommand (sh : Shell) (command : Text) : Text × Shell :=
  match sh.session.execute command with
  | (.error e, session) => (printError e, { sh with session })
  | (.ok reply, session) =>
    let sh := { sh with session }
    if reply.stop then (printMessage reply.message ++ farewell, sh.quit)
    else (printMessage reply.message, sh)

/-- What a line is, blanks around it left out. -/
inductive Line where
  | nothing
  | dot (text : Text)
  | command (text : Text)
  deriving Repr, DecidableEq

def Line.ofText (line : Text) : Line :=
  match line.strip with
  | [] => .nothing
  | .char '-' :: .char '-' :: _ => .nothing
  | .char '.' :: cs => .dot ('.' :: cs)
  | cs => .command cs

/-- Takes one line: what it prints, or what breaks it off, and the shell after it. -/
def handleLine (sh : Shell) (line : Text) : Except Error Text × Shell :=
  match Line.ofText line with
  | .nothing => (.ok [], sh)
  | .dot text => sh.runDotCommand text
  | .command text =>
    let (text, sh') := sh.runCommand text
    (.ok text, sh')

/-- The notices of a line. -/
def lineNotices (sh : Shell) (line : Text) : List Notice :=
  match Line.ofText line with
  | .command text =>
    sh.session.notices text ++
      match (sh.session.execute text).1 with
      | .error e => if e.isReported then [] else [.unexpected text]
      | .ok _ => []
  | _ => []

/-! ### Laws -/

theorem handleLine_nothing {sh : Shell} {line : Text} (h : Line.ofText line = .nothing) :
    sh.handleLine line = (.ok [], sh) := by rw [handleLine, h]

theorem handleLine_dot {sh : Shell} {line text : Text} (h : Line.ofText line = .dot text) :
    sh.handleLine line = sh.runDotCommand text := by
  rw [handleLine, h]

theorem handleLine_command {sh : Shell} {line text : Text}
    (h : Line.ofText line = .command text) :
    sh.handleLine line = (.ok (sh.runCommand text).1, (sh.runCommand text).2) := by
  rw [handleLine, h]

end Shell

end TableAlgebra
