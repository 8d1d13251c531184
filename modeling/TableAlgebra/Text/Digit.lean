import TableAlgebra.Text

/-!
# Decimal digits

Digits of every script: each script writes zero to nine as ten consecutive code points, so a
script is known by its zero.
-/

namespace TableAlgebra.Text

/-- The zeros of the scripts that have decimal digits. -/
def zeros : List Nat :=
  [48, 1632, 1776, 1984, 2406, 2534, 2662, 2790, 2918, 3046, 3174, 3302, 3430, 3558, 3664, 3792,
   3872, 4160, 4240, 6112, 6160, 6470, 6608, 6784, 6800, 6992, 7088, 7232, 7248, 42528, 43216,
   43264, 43472, 43504, 43600, 44016, 65296, 66720, 68912, 69734, 69872, 69942, 70096, 70384,
   70736, 70864, 71248, 71360, 71472, 71904, 72016, 72784, 73040, 73120, 92768, 92864, 93008,
   120782, 120792, 120802, 120812, 120822, 123200, 123632, 125264, 130032]

/-- The value of a decimal digit, in whichever script it is written. -/
def digit? (p : Point) : Option Nat :=
  (zeros.find? fun z => z ≤ p.number && p.number < z + 10).map (p.number - ·)

def isDigit (p : Point) : Bool := (digit? p).isSome

/-- The number that a run of digits writes, after digits that wrote `n`. -/
def digitsFrom (n : Nat) : Text → Nat
  | [] => n
  | p :: t => digitsFrom (10 * n + (digit? p).getD 0) t

theorem digitsFrom_nil (n : Nat) : digitsFrom n [] = n := rfl

theorem digitsFrom_cons (n : Nat) (p : Point) (t : Text) :
    digitsFrom n (p :: t) = digitsFrom (10 * n + (digit? p).getD 0) t := rfl

theorem digitsFrom_append (n : Nat) (t u : Text) :
    digitsFrom n (t ++ u) = digitsFrom (digitsFrom n t) u := by
  induction t generalizing n with
  | nil => rfl
  | cons p t ih => rw [List.cons_append, digitsFrom_cons, digitsFrom_cons, ih]

theorem digit?_lt {p : Point} {d : Nat} (h : digit? p = some d) : d < 10 := by
  obtain ⟨z, hz, rfl⟩ := Option.map_eq_some_iff.mp h
  have := List.find?_some hz
  simp only [Bool.and_eq_true, decide_eq_true_eq] at this
  omega

end TableAlgebra.Text
