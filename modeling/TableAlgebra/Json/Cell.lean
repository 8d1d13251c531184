import TableAlgebra.Json
import TableAlgebra.Table

/-!
# Cells and tables as JSON

A cell is its payload, null when it has none. A table is its header, its type tags and its rows,
so that the kinds of the cells can be read off the tags.
-/

namespace TableAlgebra

/-- The cell of a kind with a payload; null makes a null cell, and a payload of another kind is
refused. -/
def Cell.ofJson (k : Kind) (v : Json) : Except Error Cell :=
  match k, v with
  | k, .null => .ok (.null k)
  | .numeric, .int n => .ok (.numeric (some n))
  | .text, .string s => .ok (.text (some s))
  | k, v => .error (if v.isWritable then .wrongPayload k v.inspect else .integerTooLong)

def Cell.toJson : Cell → Json
  | .numeric (some n) => .int n
  | .text (some s) => .string s
  | _ => .null

def Row.toJson (r : Row) : Json := .array (r.map Cell.toJson)

namespace Table

def headerJson (t : Table) : Json :=
  if t.hasHeader then .array (t.header.map .string) else .null

def toJson (t : Table) : Json :=
  .object [("header", t.headerJson), ("schema", .array (t.schema.map fun k => .string k.tag)),
    ("rows", .array (t.rows.map Row.toJson))]

end Table

theorem Cell.ofJson_toJson (c : Cell) : Cell.ofJson c.kind c.toJson = .ok c := by
  cases c with
  | numeric v => cases v <;> rfl
  | text v => cases v <;> rfl

end TableAlgebra
