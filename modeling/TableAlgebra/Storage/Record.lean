import TableAlgebra.Row
import TableAlgebra.Text.Blank
import TableAlgebra.Text.Lines

/-!
# Records

A record is one line: fields with commas between them. There is no quoting, so a field holds no
comma, and the line ends at the end of the line do not belong to the last field.
-/

namespace TableAlgebra.Storage.Record

/-- The line without the line ends at its end. -/
def stripLineEnd (line : Text) : Text :=
  line.dropEndWhile fun c => c = '\r' || c = '\n'

def split (line : Text) : List Text := Text.splitOn ',' (stripLineEnd line)

/-- Reads a cell of a record; a field that is no integer is a fault of the source. -/
def readCell (k : Kind) (field : Option Text) : Except Error Cell :=
  (Cell.readField k field).mapError fun
    | .notInteger s => .source (.notInteger s)
    | e => e

/-- Reads the cells of a record, from the left. -/
def readCells : Schema → List (Option Text) → Except Error Row
  | k :: ks, f :: fs => do
    let c ← readCell k f
    let cs ← readCells ks fs
    return c :: cs
  | _, _ => .ok []

def readRow (schema : Schema) (fields : List (Option Text)) : Except Error Row :=
  if fields.length = schema.length then readCells schema fields
  else .error (.source (.recordWidth fields.length schema.length))

def readLine (schema : Schema) (line : Text) : Except Error Row :=
  readRow schema ((split line).map some)

theorem split_ne_nil (line : Text) : split line ≠ [] := fun h =>
  Text.splitOn_ne_nil _ _ h

end TableAlgebra.Storage.Record
