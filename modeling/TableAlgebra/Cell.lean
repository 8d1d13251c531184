import TableAlgebra.Error
import TableAlgebra.Text.Numeral
import TableAlgebra.Text.Quoted

/-!
# Cells

A cell is an integer or a text, and either may be null. Two integers compare by their difference;
in every other case the written forms compare, code point by code point. An integer of too many
digits has no written form, so it cannot be compared with a null cell or a text. `written` and
`order` are the form and the order that there are where this does not matter (`write_eq`,
`compare_eq`).
-/

namespace TableAlgebra

inductive Cell where
  | numeric (value : Option Int)
  | text (value : Option Text)
  deriving Repr, DecidableEq

namespace Cell

def kind : Cell → Kind
  | numeric _ => .numeric
  | text _ => .text

def isNull : Cell → Bool
  | numeric v => v.isNone
  | text v => v.isNone

def null : Kind → Cell
  | .numeric => numeric none
  | .text => text none

/-- The digits or the text; a null cell writes nothing. -/
def written : Cell → Text
  | numeric (some n) => .ofInt n
  | text (some s) => s
  | _ => []

def isWritable : Cell → Bool
  | numeric (some n) => Text.Numeral.isShort n
  | _ => true

def write : Cell → Except Error Text
  | numeric (some n) => okIf (Text.Numeral.isShort n) (.ofInt n) .integerTooLong
  | c => .ok c.written

/-! ### Reading -/

def readInt (field : Text) : Except Error Int :=
  match Text.Numeral.ofField? field with
  | none => .error (.notInteger field)
  | some n => (n.value.map Subtype.val).mapError Error.tooManyDigits

def read (k : Kind) (field : Text) : Except Error Cell :=
  match k with
  | .numeric => (readInt field).map fun n => numeric (some n)
  | .text => .ok (text (some field))

/-- Reads a cell of a kind from a field; a missing field makes a null cell. -/
def readField (k : Kind) : Option Text → Except Error Cell
  | none => .ok (null k)
  | some field => read k field

/-! ### Comparison -/

/-- The order of two texts: negative, zero or positive. -/
def compareText (s t : Text) : Int := if s < t then -1 else if s = t then 0 else 1

/-- The order of two cells: negative, zero or positive. -/
def order : Cell → Cell → Int
  | numeric (some m), numeric (some n) => m - n
  | a, b => compareText a.written b.written

/-- The order of two cells, which need their written forms unless both are integers. -/
def compare : Cell → Cell → Except Error Int
  | numeric (some m), numeric (some n) => .ok (m - n)
  | a, b => do return compareText (← a.write) (← b.write)

def isComparable : Cell → Cell → Bool
  | numeric (some _), numeric (some _) => true
  | a, b => a.isWritable && b.isWritable

def inspect : Cell → Except Error Text
  | numeric none => .ok "Cell(kind=<CellKind.NUMERIC: 1>, value=None)"
  | numeric (some n) => (numeric (some n)).write.map fun digits =>
    "Cell(kind=<CellKind.NUMERIC: 1>, value=" ++ digits ++ ")"
  | text none => .ok "Cell(kind=<CellKind.TEXT: 2>, value=None)"
  | text (some s) => .ok ("Cell(kind=<CellKind.TEXT: 2>, value=" ++ s.quote ++ ")")

/-! ### Laws -/

theorem kind_null (k : Kind) : (null k).kind = k := by cases k <;> rfl

theorem order_numeric (m n : Int) : order (numeric (some m)) (numeric (some n)) = m - n := rfl

theorem order_text (v w : Option Text) :
    order (text v) (text w) = compareText (text v).written (text w).written := by
  unfold order
  split <;> simp_all

theorem write_eq (c : Cell) : c.write = okIf c.isWritable c.written .integerTooLong := by
  rcases c with v | v <;> cases v <;> rfl

theorem compare_eq (a b : Cell) :
    a.compare b = okIf (a.isComparable b) (a.order b) .integerTooLong := by
  have hboth : (do return compareText (← a.write) (← b.write)) =
      okIf (a.isWritable && b.isWritable) (compareText a.written b.written)
        Error.integerTooLong := by
    rw [write_eq, write_eq]
    cases a.isWritable
    · rfl
    · cases b.isWritable <;> rfl
  unfold compare order isComparable
  split
  · rfl
  · exact hboth

theorem read_text (s : Text) : read .text s = .ok (text (some s)) := rfl

theorem kind_of_read {k : Kind} {s : Text} {c : Cell} (h : read k s = .ok c) : c.kind = k := by
  cases k with
  | text => rw [read_text] at h; cases h; rfl
  | numeric =>
    simp only [read] at h
    cases hr : readInt s with
    | error e => rw [hr] at h; cases h
    | ok n => rw [hr] at h; cases h; rfl

theorem isWritable_of_read {k : Kind} {s : Text} {c : Cell} (h : read k s = .ok c) :
    c.isWritable = true := by
  cases k with
  | text =>
    cases h
    rfl
  | numeric =>
    obtain ⟨n, hn, rfl⟩ := map_eq_ok.mp h
    rw [readInt] at hn
    split at hn
    · cases hn
    · next m _ =>
      cases hv : m.value with
      | error d =>
        rw [hv] at hn
        cases hn
      | ok v =>
        rw [hv] at hn
        cases hn
        exact v.property

theorem isNull_of_read {k : Kind} {s : Text} {c : Cell} (h : read k s = .ok c) :
    c.isNull = false := by
  cases k with
  | text =>
    cases h
    rfl
  | numeric =>
    obtain ⟨n, _, rfl⟩ := map_eq_ok.mp h
    rfl

/-- A value of the same kind that is there and has a written form can be compared with any cell. -/
theorem isComparable_of_kind {a b : Cell} (hk : a.kind = b.kind) (hn : b.isNull = false)
    (hw : b.isWritable = true) : a.isComparable b = true := by
  rcases a with v | v <;> rcases b with w | w <;> cases hk
  · cases w with
    | none => cases hn
    | some n =>
      cases v with
      | none => exact hw
      | some m => rfl
  · rfl

end Cell

end TableAlgebra
