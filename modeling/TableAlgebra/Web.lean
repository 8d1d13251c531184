import TableAlgebra.Web.Payload
import TableAlgebra.Web.Response

/-!
# The web API

A session behind HTTP: an overview of its tables, each table as JSON or as records, replacing and
deleting a table, and carrying out a command. The framework reads the body of a command: `execute`
has the value that it comes to, or none where the framework breaks off.
-/

namespace TableAlgebra.Web

open Storage (Feed Files)

inductive Request where
  | index
  | table (name : Text)
  | records (name : Text)
  | load (name : Text) (headed : Option Text) (body : Text)
  | delete (name : Text)
  | execute (body : Option Json)

/-- The query value says that there is a header. -/
def isHeaded (value : Option Text) : Bool :=
  match (value.getD "0").lower.string? with
  | some "1" | some "true" | some "yes" => true
  | _ => false

/-! ### Answering -/

def command (s : Session) (text : Text) : Response × Session :=
  match s.execute text with
  | (.ok reply, s') => (withTables reply.table.toList (replyJson reply), s')
  | (.error e, s') => (commandRefusal e, s')

def respond (s : Session) : Request → Response × Session
  | .index => (.json 200 (overview s), s)
  | .table name =>
    match s.table name with
    | .ok t => (withTables [t] t.toJson, s)
    | .error e => (refusal 404 e.message, s)
  | .records name =>
    match s.render name with
    | .ok text => (.records text, s)
    | .error e => (recordsRefusal e, s)
  | .load name headed body =>
    match s.loadFeed (isHeaded headed) name (.ok { lines := body.splitLines }) with
    | .ok (t, s') =>
      (.json 200 (.object [("name", .string name), ("rows", .int t.rows.length)]), s')
    | .error e => (loadRefusal e, s)
  | .delete name =>
    match s.table name with
    | .ok _ => (.json 200 (.object [("removed", .string name)]), s.remove name)
    | .error e => (refusal 404 e.message, s)
  | .execute body =>
    match body.map Payload.ofJson with
    | some .missing => (refusal 400 "Please provide a command.", s)
    | some (.command text) => command s text
    | some .unfit | none => (.failure, s)

/-! ### The sample tables -/

/-- The tables that the API starts with: names, type tags and lines. -/
def samples : List (Text × List Text × List Text) :=
  [("students", ["int", "string", "int"],
    ["id,name,year", "1,Amina,2", "2,Brian,1", "3,Chloe,3", "4,Daniel,1"]),
   ("enrolments", ["int", "string"],
    ["id,course", "1,Databases", "1,Networks", "2,Databases", "3,Compilers", "5,Databases"])]

/-- Defines a table and fills it from lines whose first one is the header. -/
def addSample (s : Session) (name : Text) (tags lines : List Text) : Except Error Session := do
  let (_, s) ← s.define name tags
  let (_, s) ← s.loadFeed true name (.ok { lines })
  return s

def start (files : Files) : Session :=
  samples.foldl (fun s (name, tags, lines) => (addSample s name tags lines).toOption.getD s)
    { files }

/-! ### Laws -/

theorem respond_table_session (s : Session) (name : Text) : (respond s (.table name)).2 = s := by
  unfold respond
  dsimp only
  split <;> rfl

theorem respond_records_session (s : Session) (name : Text) :
    (respond s (.records name)).2 = s := by
  unfold respond
  dsimp only
  split <;> rfl

end TableAlgebra.Web
