import TableAlgebra.Row
import TableAlgebra.Runs.Sort

/-!
# Tables

A table has a schema, perhaps a header that names its columns, and rows in order. An empty header
means that the columns have no names. Rows enter by `append`, which turns away those that do not
conform.
-/

namespace TableAlgebra

structure Table where
  schema : Schema
  header : List Text := []
  rows : List Row := []
  deriving Repr, DecidableEq

namespace Table

/-! ### Construction -/

/-- A header as wide as the schema, or none. -/
def fitHeader (schema : Schema) (header : List Text) : List Text :=
  if header.length = schema.length then header else []

/-- The table without rows; a header of the wrong width is left out. -/
def empty (schema : Schema) (header : List Text := []) : Table :=
  { schema, header := fitHeader schema header }

def append (t : Table) (row : Row) : Bool × Table :=
  if row.conforms t.schema then (true, { t with rows := t.rows ++ [row] }) else (false, t)

def appendAll (t : Table) (rows : List Row) : Bool × Table :=
  if rows.all (·.conforms t.schema) then (true, { t with rows := t.rows ++ rows }) else (false, t)

/-- The table less the rows that do not conform. -/
def sift (t : Table) : Table := { t with rows := t.rows.filter (·.conforms t.schema) }

/-- The table of a schema and a header with those of the rows that conform. -/
def ofRows (schema : Schema) (header : List Text) (rows : List Row) : Table :=
  sift { schema, header := fitHeader schema header, rows }

/-! ### Shape -/

def width (t : Table) : Nat := t.schema.length

def hasHeader (t : Table) : Bool := !t.header.isEmpty

/-- The position of a column, counted from zero. -/
def position (t : Table) (i : Int) : Except Error Nat :=
  if 0 ≤ i ∧ i < t.width then .ok i.toNat else .error (.noColumn i)

/-- The kind of a column; a position past the last column reads as text. -/
def kind (t : Table) (c : Nat) : Kind := t.schema.getD c .text

def label (t : Table) (c : Nat) : Text := t.header.getD c []

def columns (t : Table) : List (Text × Kind) := t.schema.mapIdx fun c k => (t.label c, k)

/-- The names and kinds of the columns, if the header has a name for each of them. -/
def describe (t : Table) : Except Error (List (Text × Kind)) :=
  if t.hasHeader && t.header.length < t.width then .error .missingText else .ok t.columns

def columnOf (t : Table) (name : Text) : Except Error Nat :=
  match t.header.idxOf? name with
  | some c => .ok c
  | none => .error (.columnOutOfRange (.name name))

def resolve (t : Table) : ColumnRef → Except Error Nat
  | .index i => t.position i
  | .name s => t.columnOf s

def rowAt (t : Table) (i : Int) : Option Row := if 0 ≤ i then t.rows[i.toNat]? else none

def cellAt (t : Table) (row column : Int) : Except Error Cell :=
  match t.rowAt row with
  | some r => r.cellAt column
  | none => .error (.noRow row)

/-! ### Change -/

def removeHeader (t : Table) : Table := { t with header := [] }

/-- Gives the columns other names; no names at all remove the header. -/
def setHeader (t : Table) (header : List Text) : Except Error Table :=
  if header.isEmpty then .ok t.removeHeader
  else if header.length = t.width then .ok { t with header }
  else .error (.headerWidth header.length t.width)

/-- Puts another cell into a row, of whatever kind, and tells which was there. -/
def replaceCell (t : Table) (row column : Int) (c : Cell) : Option Cell × Table :=
  match t.rowAt row with
  | none => (none, t)
  | some r =>
    let (old, new) := r.replace column c
    (old, { t with rows := t.rows.set row.toNat new })

/-! ### Order -/

def rowLE (c : Nat) (r s : Row) : Bool := (r.cell c).order (s.cell c) ≤ 0

/-- The strict order of two rows by one column, if their cells can be compared. -/
def rowLT (c : Nat) (r s : Row) : Option Bool :=
  ((r.cell c).compare (s.cell c)).toOption.map (· < 0)

/-- Every cell of a column is of the column's kind. -/
def isUniform (t : Table) (c : Nat) : Bool := t.rows.all fun r => (r.cell c).kind = t.kind c

/-- The table with its rows in ascending order of one column; rows that tie keep their order. -/
def sortBy (t : Table) (c : Nat) : Table := { t with rows := t.rows.mergeSort (rowLE c) }

/-- The rows in ascending order of one column, by merging their runs, or as far as they are arranged
where two cells cannot be compared. The cells of one kind are in a total order, which fixes the
result. Cells of both kinds need not be: of 9, 10 and the text 1z, each comes before the next and
the last before the first. -/
def sortRows (t : Table) (c : Nat) : Except (List Row) (List Row) :=
  (Runs.sort (rowLT c) t.rows).map fun rows => if t.isUniform c then (t.sortBy c).rows else rows

/-- Sorts the rows in place on a column counted from zero, and tells whether that went well. -/
def sort (t : Table) (column : Int) : Except Error Unit × Table :=
  match t.position column with
  | .error e => (.error e, t)
  | .ok c =>
    match t.sortRows c with
    | .ok rows => (.ok (), { t with rows })
    | .error rows => (.error .integerTooLong, { t with rows })

def sortedBy (t : Table) (column : Int) : Except Error Table :=
  (t.sort column).1.map fun _ => (t.sort column).2

/-! ### Written form -/

/-- The header, if there is one, and the records of the rows. -/
def recordsOf (t : Table) (rows : List Text) : List Text :=
  (if t.hasHeader then [Text.joined "," t.header] else []) ++ rows

def records (t : Table) : List Text := t.recordsOf (t.rows.map Row.written)

/-- Records, one a line. -/
def asLines (records : List Text) : Text := records.flatMap (· ++ "\n")

def written (t : Table) : Text := asLines t.records

def isWritable (t : Table) : Bool := t.rows.all Row.isWritable

/-- The written form, if each cell has one. -/
def write (t : Table) : Except Error Text :=
  (t.rows.mapM Row.write).map fun rows => asLines (t.recordsOf rows)

def inspect (t : Table) : Text :=
  let flags := t.schema.map fun k => if k = .numeric then ("True" : Text) else "False"
  "Table(schema=[" ++ Text.joined ", " flags ++ "], header=[" ++
    Text.joined ", " (t.header.map Text.quote) ++ "], rows=" ++ .ofNat t.rows.length ++ ")"

/-! ### Well-formed tables -/

/-- Every row conforms to the schema. -/
def RowsConform (t : Table) : Prop := ∀ r ∈ t.rows, r.conforms t.schema = true

/-- The header is absent or as wide as the schema. -/
def HeaderFits (t : Table) : Prop := t.header = [] ∨ t.header.length = t.schema.length

structure WellFormed (t : Table) : Prop where
  rows : t.RowsConform
  header : t.HeaderFits

instance (t : Table) : Decidable t.RowsConform := inferInstanceAs (Decidable (∀ r ∈ t.rows, _))

instance (t : Table) : Decidable t.HeaderFits := inferInstanceAs (Decidable (_ ∨ _))

instance (t : Table) : Decidable t.WellFormed :=
  decidable_of_iff (t.RowsConform ∧ t.HeaderFits) ⟨fun h => ⟨h.1, h.2⟩, fun h => ⟨h.rows, h.header⟩⟩

/-! ### Laws -/

/-- A list is what stands at its positions, in order. -/
theorem map_getD_range {α : Type} (xs : List α) (a : α) :
    (List.range xs.length).map (xs.getD · a) = xs := by
  apply List.ext_getElem
  · rw [List.length_map, List.length_range]
  · intro i hi hi'
    rw [List.getElem_map, List.getElem_range, List.getD_eq_getElem?_getD,
      List.getElem?_eq_getElem hi', Option.getD_some]

/-- What is true of the elements of a list, and of what stands for a missing one, is true at every
position. -/
theorem forall_getD {α : Type} {p : α → Prop} {xs : List α} {a : α} (ha : p a)
    (h : ∀ x ∈ xs, p x) (i : Nat) : p (xs.getD i a) := by
  rw [List.getD_eq_getElem?_getD]
  cases hx : xs[i]? with
  | none => exact ha
  | some x => exact h x (List.mem_of_getElem? hx)

theorem headerFits_fitHeader (schema : Schema) (header : List Text) :
    fitHeader schema header = [] ∨ (fitHeader schema header).length = schema.length := by
  unfold fitHeader
  split
  · next h => exact Or.inr h
  · exact Or.inl rfl

theorem fitHeader_of_length_eq {schema : Schema} {header : List Text}
    (h : header.length = schema.length) : fitHeader schema header = header := if_pos h

theorem sift_of_rowsConform {t : Table} (h : t.RowsConform) : t.sift = t := by
  rw [sift, List.filter_eq_self.mpr h]

theorem rowsConform_sift (t : Table) : t.sift.RowsConform := fun _ h => (List.mem_filter.mp h).2

theorem RowsConform.length_eq {t : Table} (h : t.RowsConform) {r : Row} (hr : r ∈ t.rows) :
    r.length = t.width := Row.length_of_conforms (h r hr)

theorem RowsConform.kind_eq {t : Table} (h : t.RowsConform) {r : Row} (hr : r ∈ t.rows) (c : Nat) :
    (r.cell c).kind = t.kind c := Row.kind_cell (h r hr) c

theorem wellFormed_empty (schema : Schema) (header : List Text) :
    (empty schema header).WellFormed :=
  ⟨fun _ h => absurd h List.not_mem_nil, headerFits_fitHeader schema header⟩

theorem wellFormed_ofRows (schema : Schema) (header : List Text) (rows : List Row) :
    (ofRows schema header rows).WellFormed :=
  ⟨rowsConform_sift _, headerFits_fitHeader schema header⟩

theorem position_eq_ok {t : Table} {i : Int} {c : Nat} :
    t.position i = .ok c ↔ i = c ∧ c < t.width := by
  unfold position
  split
  · next h =>
    constructor
    · intro e
      cases e
      omega
    · intro e
      rw [e.1, Int.toNat_natCast]
  · next h =>
    constructor
    · intro e
      cases e
    · intro e
      omega

theorem position_natCast {t : Table} {c : Nat} (h : c < t.width) : t.position c = .ok c :=
  position_eq_ok.mpr ⟨rfl, h⟩

theorem perm_rows_sortBy (t : Table) (c : Nat) : (t.sortBy c).rows.Perm t.rows :=
  List.mergeSort_perm t.rows (rowLE c)

theorem isUniform_of_rowsConform {t : Table} (h : t.RowsConform) (c : Nat) :
    t.isUniform c = true :=
  List.all_eq_true.mpr fun r hr => decide_eq_true (Row.kind_cell (h r hr) c)

theorem write_eq (t : Table) :
    t.write = okIf t.isWritable t.written .integerTooLong := by
  have h : t.rows.mapM Row.write =
      okIf t.isWritable (t.rows.map Row.written) Error.integerTooLong := by
    rw [show Row.write = fun r => okIf r.isWritable r.written .integerTooLong from
      funext Row.write_eq]
    exact mapM_okIf ..
  rw [write, h, map_okIf]
  rfl

/-- An integer is all that can have no written form. -/
theorem writable_iff {t : Table} : t.isWritable = true ↔
    ∀ r ∈ t.rows, ∀ n, .numeric (some n) ∈ r →
      n.natAbs < Text.Numeral.bound Text.Numeral.maxDigits := by
  unfold isWritable Row.isWritable
  simp only [List.all_eq_true]
  refine forall₂_congr fun r _ => ⟨fun h n hn => Text.Numeral.isShort_iff.mp (h _ hn),
    fun h c hc => ?_⟩
  rcases c with v | v <;> cases v
  · rfl
  · exact Text.Numeral.isShort_iff.mpr (h _ hc)
  · rfl
  · rfl

theorem sort_eq_with_rows (t : Table) (column : Int) :
    (t.sort column).2 = { t with rows := (t.sort column).2.rows } := by
  unfold sort
  split
  · rfl
  · split <;> rfl

/-- Wherever a sort ends, the rows are those of the table. -/
theorem perm_rows_sort (t : Table) (column : Int) : (t.sort column).2.rows.Perm t.rows := by
  unfold sort
  split
  · exact .refl _
  · next c _ =>
    have hkeeps : Runs.Keeps (rowLT c) id t.rows (Runs.sort (rowLT c) t.rows) :=
      Runs.keeps_sort t.rows
    have hruns := hkeeps.perm
    unfold sortRows
    cases hs : Runs.sort (rowLT c) t.rows with
    | error rows =>
      rw [hs] at hruns
      exact hruns
    | ok rows =>
      rw [hs] at hruns
      show (if t.isUniform c then (t.sortBy c).rows else rows).Perm t.rows
      split
      · exact perm_rows_sortBy t c
      · exact hruns

end Table

end TableAlgebra
