import TableAlgebra.Text.Digit

/-!
# Numerals

An integer as it is written: perhaps a sign, then digits of any script. Fields of records admit
either sign and a line feed at the end; words of the command language admit a minus alone. A
numeral of more than `maxDigits` digits, leading zeros counted, has no value, and an integer of
more digits than that has no written form.
-/

namespace TableAlgebra.Text

structure Numeral where
  negative : Bool
  digits : Text
  deriving Repr, DecidableEq

namespace Numeral

/-- The most digits that a numeral with a value has. -/
def maxDigits : Nat := 4300

/-- The numbers below the bound are those of so many digits or fewer. -/
def bound (digits : Nat) : Nat := Nat.pow 10 digits

def isShort (n : Int) : Bool := (ofNat n.natAbs).length ≤ maxDigits

/-- An integer that a numeral can have for its value. -/
abbrev Value := {n : Int // isShort n = true}

def toInt (n : Numeral) : Int :=
  let m : Int := digitsFrom 0 n.digits
  if n.negative then -m else m

theorem bound_le {j k : Nat} (h : j ≤ k) : bound j ≤ bound k :=
  Nat.pow_le_pow_right (by decide) h

theorem length_ofNat_le_iff {n k : Nat} (hk : 0 < k) : (ofNat n).length ≤ k ↔ n < bound k := by
  rw [ofNat_eq_map, List.length_map]
  exact Nat.length_toDigits_le_iff (by decide) hk

theorem isShort_iff {n : Int} : isShort n = true ↔ n.natAbs < bound maxDigits :=
  decide_eq_true_iff.trans (length_ofNat_le_iff (by decide))

theorem isShort_eq_false_iff {n : Int} : isShort n = false ↔ bound maxDigits ≤ n.natAbs := by
  rw [← Bool.not_eq_true, isShort_iff, Nat.not_lt]

theorem isShort_bound : isShort (bound maxDigits) = false :=
  isShort_eq_false_iff.mpr (Nat.le_of_eq (Int.natAbs_natCast _).symm)

theorem digitsFrom_lt (n : Nat) (t : Text) : digitsFrom n t < (n + 1) * bound t.length := by
  induction t generalizing n with
  | nil =>
    show n < (n + 1) * 1
    omega
  | cons p t ih =>
    have hd : (digit? p).getD 0 < 10 := by
      cases h : digit? p with
      | none => exact Nat.zero_lt_succ _
      | some d => exact digit?_lt h
    have hle : 10 * n + (digit? p).getD 0 + 1 ≤ (n + 1) * 10 := by omega
    calc digitsFrom n (p :: t)
        < (10 * n + (digit? p).getD 0 + 1) * bound t.length := by
          rw [digitsFrom_cons]
          exact ih _
      _ ≤ (n + 1) * 10 * bound t.length := Nat.mul_le_mul_right _ hle
      _ = (n + 1) * bound (p :: t).length := by
          rw [List.length_cons, Nat.mul_assoc, Nat.mul_comm 10]
          rfl

theorem natAbs_toInt_lt (n : Numeral) : n.toInt.natAbs < bound n.digits.length := by
  have h := digitsFrom_lt 0 n.digits
  rw [Nat.zero_add, Nat.one_mul] at h
  rw [toInt]
  split <;> omega

theorem isShort_toInt {n : Numeral} (h : n.digits.length ≤ maxDigits) :
    isShort n.toInt = true :=
  isShort_iff.mpr (Nat.lt_of_lt_of_le (natAbs_toInt_lt n) (bound_le h))

/-- The value of a numeral, or the number of digits that is too great. -/
def value (n : Numeral) : Except Nat Value :=
  if h : n.digits.length ≤ maxDigits then .ok ⟨n.toInt, isShort_toInt h⟩
  else .error n.digits.length

/-- A numeral of one digit or more, and nothing else. -/
def ofDigits? (negative : Bool) (t : Text) : Option Numeral :=
  if !t.isEmpty && t.all isDigit then some ⟨negative, t⟩ else none

def ofWord? : Text → Option Numeral
  | [] => none
  | p :: t => if p = '-' then ofDigits? true t else ofDigits? false (p :: t)

/-- Drops one line feed at the end. -/
def dropFinalNewline (t : Text) : Text :=
  if t.getLast? = some '\n' then t.dropLast else t

def ofField? (t : Text) : Option Numeral :=
  match dropFinalNewline t with
  | [] => none
  | p :: u =>
    if p = '-' then ofDigits? true u
    else if p = '+' then ofDigits? false u
    else ofDigits? false (p :: u)

theorem ofDigits?_eq_some {b : Bool} {t : Text} {n : Numeral} :
    ofDigits? b t = some n ↔ n = ⟨b, t⟩ ∧ t ≠ [] ∧ ∀ p ∈ t, isDigit p = true := by
  simp only [ofDigits?, Option.ite_none_right_eq_some, Option.some.injEq, Bool.and_eq_true,
    Bool.not_eq_true', List.isEmpty_eq_false_iff, List.all_eq_true]
  exact ⟨fun e => ⟨e.2.symm, e.1⟩, fun e => ⟨e.2, e.1.symm⟩⟩

theorem value_of_length_le {n : Numeral} (h : n.digits.length ≤ maxDigits) :
    n.value = .ok ⟨n.toInt, isShort_toInt h⟩ := dif_pos h

theorem value_of_lt_length {n : Numeral} (h : maxDigits < n.digits.length) :
    n.value = .error n.digits.length := dif_neg (Nat.not_le.mpr h)

end Numeral

end TableAlgebra.Text
