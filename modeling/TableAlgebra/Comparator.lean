import TableAlgebra.Cell
import TableAlgebra.Text.Blank

/-!
# Comparators

The five ways in which a selection compares a cell with a literal. In legacy mode every comparator
that admits equality is equality alone. Cells that are equal are not compared any further; other
cells may be such that they cannot be compared (`tell_eq`).
-/

namespace TableAlgebra

inductive Comparator where
  | lt
  | le
  | eq
  | ge
  | gt
  deriving Repr, DecidableEq

namespace Comparator

def symbol : Comparator → Text
  | lt => "<"
  | le => "<="
  | eq => "=="
  | ge => ">="
  | gt => ">"

/-- Reads a symbol between blanks; equality may be a single sign. -/
def read (text : Text) : Except Error Comparator :=
  match text.strip.string? with
  | some "<" => .ok lt
  | some "<=" => .ok le
  | some "=" => .ok eq
  | some "==" => .ok eq
  | some ">=" => .ok ge
  | some ">" => .ok gt
  | _ => .error (.unknownComparator text)

def holds : Comparator → Cell → Cell → Bool
  | eq, a, b => a = b
  | le, a, b => a = b || a.order b < 0
  | ge, a, b => a = b || 0 < a.order b
  | lt, a, b => a.order b < 0
  | gt, a, b => 0 < a.order b

def tell : Comparator → Cell → Cell → Except Error Bool
  | eq, a, b => .ok (a = b)
  | le, a, b => if a = b then .ok true else (a.compare b).map (· < 0)
  | ge, a, b => if a = b then .ok true else (a.compare b).map (0 < ·)
  | lt, a, b => (a.compare b).map (· < 0)
  | gt, a, b => (a.compare b).map (0 < ·)

/-- The relation needs no comparison, or the comparison can be made. -/
def canTell : Comparator → Cell → Cell → Bool
  | eq, _, _ => true
  | le, a, b | ge, a, b => a = b || a.isComparable b
  | lt, a, b | gt, a, b => a.isComparable b

/-- The comparator that legacy mode takes for this one. -/
def legacy : Comparator → Comparator
  | le | ge => eq
  | c => c

/-- The comparator that is meant in either mode. -/
def inMode (c : Comparator) (inLegacy : Bool) : Comparator := if inLegacy then c.legacy else c

/-- The relation in either mode. -/
def test (c : Comparator) (inLegacy : Bool) : Cell → Cell → Bool := (c.inMode inLegacy).holds

theorem read_symbol (c : Comparator) : read c.symbol = .ok c := by
  cases c <;> rfl

theorem holds_le (a b : Cell) : le.holds a b = (lt.holds a b || eq.holds a b) := Bool.or_comm ..

theorem holds_ge (a b : Cell) : ge.holds a b = (gt.holds a b || eq.holds a b) := Bool.or_comm ..

theorem canTell_of_isComparable {a b : Cell} (h : a.isComparable b = true) (c : Comparator) :
    c.canTell a b = true := by
  cases c <;> simp [canTell, h]

theorem tell_eq (c : Comparator) (a b : Cell) :
    c.tell a b = okIf (c.canTell a b) (c.holds a b) .integerTooLong := by
  have hcompare (p : Int → Bool) : (a.compare b).map p =
      okIf (a.isComparable b) (p (a.order b)) .integerTooLong := by
    rw [Cell.compare_eq, map_okIf]
  cases c
  · exact hcompare _
  · by_cases h : a = b
    · simp [tell, canTell, holds, h, okIf]
    · simp [tell, canTell, holds, h, hcompare]
  · rfl
  · by_cases h : a = b
    · simp [tell, canTell, holds, h, okIf]
    · simp [tell, canTell, holds, h, hcompare]
  · exact hcompare _

end Comparator

end TableAlgebra
