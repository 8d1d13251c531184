import TableAlgebra.Json.Cell
import TableAlgebra.Session.Execute

/-!
# Answers of the web API

A status with JSON, the records of a table, or an unexpected failure. An error that a session
answers for becomes a refusal with its message, any other one a failure, and so does a table with an
integer that is too long to be written.
-/

namespace TableAlgebra.Web

/-- What a request is answered with. -/
inductive Response where
  | json (status : Nat) (body : Json)
  | records (text : Text)
  | failure
  deriving Repr

def Response.status : Response → Nat
  | json status _ => status
  | records _ => 200
  | failure => 500

def refusal (status : Nat) (message : Text) : Response :=
  .json status (.object [("error", .string message)])

/-- What an error is answered with: a table that is not there is not found, another fault that the
session answers for is a bad request. -/
def recordsRefusal (e : Error) : Response :=
  match e with
  | .noSuchTable _ => refusal 404 e.message
  | _ => .failure

def loadRefusal (e : Error) : Response :=
  match e with
  | .noSuchTable _ => refusal 404 e.message
  | e => if e.isReported then refusal 400 e.message else .failure

def commandRefusal (e : Error) : Response :=
  if e.isReported then refusal 400 e.message else .failure

/-- Every table with its size, in the order of the names. -/
def overview (s : Session) : Json :=
  .object [("tables", .array (s.tables.names.map fun name =>
    let n := ((s.tables.find? name).map (·.rows.length)).getD 0
    .object [("name", .string name), ("rows", .int n)]))]

def replyJson (r : Reply) : Json :=
  .object [("message", .string r.message), ("table", (r.table.map Table.toJson).getD .null)]

/-- JSON in which some tables are. -/
def withTables (tables : List Table) (body : Json) : Response :=
  if tables.all Table.isWritable then .json 200 body else .failure

end TableAlgebra.Web
