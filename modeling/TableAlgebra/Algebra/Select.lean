import TableAlgebra.Comparator
import TableAlgebra.Table

/-!
# Selection, order and reference

The operators that keep columns and choose or arrange rows. `selectRows` and `unreferencedRows`
are the operators on columns that are known to exist; `select` and `unreferenced` check their
arguments first. A selection looks at every row, and each cell has to be one that can be compared
with the value: the cells of a column whose kind the value has always can (`select_eq`).
-/

namespace TableAlgebra.Algebra

def keep (t : Table) (p : Row → Bool) : Table := .ofRows t.schema t.header (t.rows.filter p)

def selectRows (t : Table) (c : Nat) (relation : Cell → Cell → Bool) (value : Cell) : Table :=
  keep t fun r => relation (r.cell c) value

/-- The value that a literal writes for a column of a kind: blanks around it do not count. -/
def readLiteral (k : Kind) (literal : Text) : Except Error Cell :=
  Cell.read k literal.strip

/-- The rows whose cell in a column stands in the relation to a literal. The symbol is read first,
then the column is looked up, then the literal is read. -/
def select (t : Table) (column : Int) (symbol literal : Text) (legacy : Bool := false) :
    Except Error Table := do
  let comparator ← Comparator.read symbol
  let c ← t.position column
  let value ← readLiteral (t.kind c) literal
  let rows ← t.rows.filterM fun r => (comparator.inMode legacy).tell (r.cell c) value
  return .ofRows t.schema t.header rows

def orderBy (t : Table) (column : Int) : Except Error Table := t.sortedBy column

/-- The rows of `t` whose cell in `c` is in no row of `referenced` the cell in `rc`. -/
def unreferencedRows (t : Table) (c : Nat) (referenced : Table) (rc : Nat) : Table :=
  keep t fun r => !(referenced.rows.map (·.cell rc)).contains (r.cell c)

/-- The referential check: an empty result means that every row is covered. -/
def unreferenced (t : Table) (column : Int) (referenced : Table) (refColumn : Int) :
    Except Error Table := do
  let c ← t.position column
  let rc ← referenced.position refColumn
  return unreferencedRows t c referenced rc

theorem rows_keep {t : Table} (h : t.RowsConform) (p : Row → Bool) :
    (keep t p).rows = t.rows.filter p :=
  List.filter_eq_self.mpr fun r hr => h r (List.mem_filter.mp hr).1

theorem header_keep {t : Table} (h : t.HeaderFits) (p : Row → Bool) :
    (keep t p).header = t.header := by
  rcases h with h | h
  · show Table.fitHeader t.schema t.header = t.header
    rw [h]
    unfold Table.fitHeader
    split <;> rfl
  · exact Table.fitHeader_of_length_eq h

/-- A cell can be compared with a literal for its kind. -/
theorem isComparable_readLiteral {k : Kind} {literal : Text} {value c : Cell}
    (hv : readLiteral k literal = .ok value) (hk : c.kind = k) : c.isComparable value = true :=
  Cell.isComparable_of_kind (hk.trans (Cell.kind_of_read hv).symm) (Cell.isNull_of_read hv)
    (Cell.isWritable_of_read hv)

theorem filterM_tell {t : Table} (h : t.RowsConform) {c : Nat} {literal : Text} {value : Cell}
    (hv : readLiteral (t.kind c) literal = .ok value) (comparator : Comparator) :
    t.rows.filterM (fun r => comparator.tell (r.cell c) value) =
      .ok (t.rows.filter fun r => comparator.holds (r.cell c) value) := by
  have hall : (t.rows.all fun r => comparator.canTell (r.cell c) value) = true :=
    List.all_eq_true.mpr fun r hr => Comparator.canTell_of_isComparable
      (isComparable_readLiteral hv (h.kind_eq hr c)) comparator
  simp only [Comparator.tell_eq]
  rw [filterM_okIf, hall]
  rfl

theorem select_eq {t : Table} (h : t.RowsConform) (column : Int) (symbol literal : Text)
    (legacy : Bool) :
    select t column symbol literal legacy = do
      let comparator ← Comparator.read symbol
      let c ← t.position column
      let value ← readLiteral (t.kind c) literal
      return selectRows t c (comparator.test legacy) value := by
  unfold select
  cases Comparator.read symbol with
  | error e => rfl
  | ok comparator =>
    cases t.position column with
    | error e => rfl
    | ok c =>
      cases hv : readLiteral (t.kind c) literal with
      | error e => simp only [bind, Except.bind, hv]
      | ok value =>
        simp only [bind, Except.bind, hv, filterM_tell h hv]
        rfl

end TableAlgebra.Algebra
