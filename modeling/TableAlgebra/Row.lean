import TableAlgebra.Cell

/-!
# Rows

A row is a list of cells. It conforms to a schema when it is as long and its cells have the kinds
that the schema lists.
-/

namespace TableAlgebra

abbrev Row := List Cell

namespace Row

def nulls (schema : Schema) : Row := schema.map Cell.null

def kinds (row : Row) : Schema := row.map Cell.kind

def conforms (row : Row) (schema : Schema) : Bool := row.kinds == schema

/-- The cell at a position; a position past the end reads as a null text. -/
def cell (row : Row) (i : Nat) : Cell := row.getD i (.null .text)

def cellAt (row : Row) (i : Int) : Except Error Cell :=
  if 0 ≤ i ∧ i < row.length then .ok (row.cell i.toNat) else .error (.noColumn i)

/-- Puts another cell at a position, and tells which was there. Outside the row nothing changes. -/
def replace (row : Row) (i : Int) (c : Cell) : Option Cell × Row :=
  if 0 ≤ i ∧ i < row.length then (row[i.toNat]?, row.set i.toNat c) else (none, row)

def fields (row : Row) : List Text := row.map Cell.written

def written (row : Row) : Text := Text.joined "," row.fields

def isWritable (row : Row) : Bool := row.all Cell.isWritable

/-- The record of the row, if each cell has a written form. -/
def write (row : Row) : Except Error Text := (row.mapM Cell.write).map (Text.joined ",")

def inspect (row : Row) : Except Error Text :=
  (row.mapM Cell.inspect).map fun cells => "Row([" ++ Text.joined ", " cells ++ "])"

/-! ### Laws -/

theorem conforms_iff {row : Row} {schema : Schema} :
    row.conforms schema = true ↔ row.map Cell.kind = schema := beq_iff_eq

theorem conforms_nulls (schema : Schema) : (nulls schema).conforms schema = true := by
  rw [conforms_iff, nulls, List.map_map]
  exact (List.map_congr_left fun k _ => Cell.kind_null k).trans (List.map_id schema)

theorem length_of_conforms {row : Row} {schema : Schema} (h : row.conforms schema = true) :
    row.length = schema.length := by
  rw [← conforms_iff.mp h, List.length_map]

theorem conforms_append {r s : Row} {p q : Schema} (hr : r.conforms p = true)
    (hs : s.conforms q = true) : Row.conforms (r ++ s) (p ++ q) = true := by
  rw [conforms_iff] at *
  rw [List.map_append, hr, hs]

theorem kind_cell {row : Row} {schema : Schema} (h : row.conforms schema = true) (i : Nat) :
    (row.cell i).kind = schema.getD i .text := by
  rw [← conforms_iff.mp h, cell, List.getD_eq_getElem?_getD, List.getD_eq_getElem?_getD,
    List.getElem?_map]
  cases row[i]? <;> rfl

theorem write_eq (row : Row) :
    row.write = okIf row.isWritable row.written .integerTooLong := by
  have h : row.mapM Cell.write = okIf row.isWritable row.fields Error.integerTooLong := by
    rw [show Cell.write = fun c => okIf c.isWritable c.written .integerTooLong from
      funext Cell.write_eq]
    exact mapM_okIf ..
  rw [write, h, map_okIf]
  rfl

theorem length_replace (row : Row) (i : Int) (c : Cell) :
    (row.replace i c).2.length = row.length := by
  unfold replace
  split
  · exact List.length_set
  · rfl

end Row

end TableAlgebra
