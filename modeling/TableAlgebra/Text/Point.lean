/-!
# Code points

A code point is a character, or a surrogate that belongs to no pair. Code points are known by their
numbers (`ofNat_number`) and ordered by them.
-/

namespace TableAlgebra.Text

inductive Point where
  | char (c : Char)
  | surrogate (n : Fin 0x800)
  deriving Repr, DecidableEq

namespace Point

instance : Coe Char Point := ⟨char⟩

def number : Point → Nat
  | char c => c.toNat
  | surrogate n => 0xD800 + n

instance : LT Point := ⟨fun p q => p.number < q.number⟩

instance : DecidableLT Point := fun p q => inferInstanceAs (Decidable (p.number < q.number))

def ofNat (n : Nat) : Point :=
  if h : 0xD800 ≤ n ∧ n < 0xE000 then surrogate ⟨n - 0xD800, by omega⟩ else char (Char.ofNat n)

def char? : Point → Option Char
  | char c => some c
  | surrogate _ => none

def isSurrogate (p : Point) : Bool := p.char?.isNone

/-! ### Laws -/

theorem not_surrogate_toNat (c : Char) : ¬(0xD800 ≤ c.toNat ∧ c.toNat < 0xE000) := by
  rcases c.valid with h | h <;> · simp only [Char.toNat, UInt32.toNat] at *; omega

theorem ofNat_number (p : Point) : ofNat p.number = p := by
  cases p with
  | char c => rw [number, ofNat, dif_neg (not_surrogate_toNat c), Char.ofNat_toNat]
  | surrogate n =>
    have hn := n.isLt
    rw [number, ofNat, dif_pos (by omega)]
    exact congrArg surrogate (Fin.ext (Nat.add_sub_cancel_left ..))

theorem number_inj {p q : Point} : p.number = q.number ↔ p = q :=
  ⟨fun h => by rw [← ofNat_number p, h, ofNat_number], congrArg number⟩

end Point

end TableAlgebra.Text
