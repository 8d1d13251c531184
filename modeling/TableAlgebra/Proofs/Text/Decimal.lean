import TableAlgebra.Proofs.Outcome
import TableAlgebra.Cell

/-!
# Integers and their decimal digits

An integer is written in decimal digits and read back from them, as long as it has no more than
`maxDigits` of them; every integer that can be read is below the bound of that many digits.

* `ofField?_append`   digits are a numeral in a field, with a sign before them or without;
* `ofField?_ofInt`, `ofWord?_ofInt`   the written form of an integer is a numeral of its sign and
                      digits;
* `readInt_ofInt`     reading what was written gives the integer back;
* `natAbs_lt_bound`   what is read is below the bound.
-/

namespace TableAlgebra

namespace Text

theorem digit?_char {c : Char} (h : c.isDigit = true) :
    digit? (.char c) = some (c.toNat - 48) := by
  simp only [Char.isDigit, Bool.and_eq_true, decide_eq_true_eq, ge_iff_le,
    UInt32.le_iff_toNat_le] at h
  change 48 ≤ c.toNat ∧ c.toNat ≤ 57 at h
  have hz : (decide (48 ≤ c.toNat) && decide (c.toNat < 48 + 10)) = true := by
    rw [Bool.and_eq_true, decide_eq_true_eq, decide_eq_true_eq]
    omega
  have hf : zeros.find? (fun z => z ≤ (Point.char c).number && (Point.char c).number < z + 10) =
      some 48 := List.find?_cons_of_pos hz
  rw [digit?, hf]
  rfl

theorem isDigit_char {c : Char} (h : c.isDigit = true) : isDigit (.char c) = true := by
  rw [isDigit, digit?_char h]
  rfl

theorem digitsFrom_map_char {cs : List Char} (h : ∀ c ∈ cs, c.isDigit = true) (n : Nat) :
    digitsFrom n (cs.map .char) = Nat.ofDigitChars 10 cs n := by
  induction cs generalizing n with
  | nil => rw [List.map_nil, digitsFrom_nil, Nat.ofDigitChars_nil]
  | cons c cs ih =>
    have hc := h c List.mem_cons_self
    rw [List.map_cons, digitsFrom_cons, digit?_char hc, Nat.ofDigitChars_cons,
      ih fun d hd => h d (List.mem_cons_of_mem _ hd)]
    rfl

theorem isDigit_of_mem_ofNat {n : Nat} {p : Point} (h : p ∈ ofNat n) : isDigit p = true := by
  rw [ofNat_eq_map] at h
  obtain ⟨c, hc, rfl⟩ := List.mem_map.mp h
  exact isDigit_char (Nat.isDigit_of_mem_toDigits (by decide) (by decide) hc)

theorem ofNat_ne_nil (n : Nat) : ofNat n ≠ [] := by
  rw [ofNat_eq_map]
  exact fun h => Nat.toDigits_ne_nil (List.map_eq_nil_iff.mp h)

theorem digitsFrom_ofNat (n : Nat) : digitsFrom 0 (ofNat n) = n := by
  rw [ofNat_eq_map, digitsFrom_map_char, Nat.ofDigitChars_ten_toDigits]
  exact fun c hc => Nat.isDigit_of_mem_toDigits (by decide) (by decide) hc

theorem ofInt_of_nonneg {n : Int} (h : 0 ≤ n) : ofInt n = ofNat n.natAbs := by
  rw [ofInt, ofNat, Int.toString_eq_repr, Int.repr_eq_if, if_pos h, Nat.toString_eq_repr,
    Int.toNat_of_nonneg h |> fun e => show n.toNat = n.natAbs by omega]

theorem ofInt_of_neg {n : Int} (h : n < 0) : ofInt n = .char '-' :: ofNat n.natAbs := by
  have e : (-n).toNat = n.natAbs := by omega
  rw [ofInt, ofNat, Int.toString_eq_repr, Int.repr_eq_if, if_neg (by omega), Nat.toString_eq_repr,
    e, ofString_append]
  rfl

theorem ofInt_ne_nil (n : Int) : ofInt n ≠ [] := by
  rcases Int.lt_or_le n 0 with h | h
  · rw [ofInt_of_neg h]
    exact List.cons_ne_nil _ _
  · rw [ofInt_of_nonneg h]
    exact ofNat_ne_nil _

theorem mem_ofInt {n : Int} {p : Point} (hp : p ∈ ofInt n) :
    isDigit p = true ∨ p = .char '-' := by
  by_cases hn : 0 ≤ n
  · rw [ofInt_of_nonneg hn] at hp
    exact Or.inl (isDigit_of_mem_ofNat hp)
  · rw [ofInt_of_neg (Int.not_le.mp hn)] at hp
    exact (List.mem_cons.mp hp).symm.imp isDigit_of_mem_ofNat id

namespace Numeral

theorem dropFinalNewline_of_not_mem {t : Text} (h : .char '\n' ∉ t) : dropFinalNewline t = t :=
  if_neg fun e => h (List.mem_of_getLast? e)

theorem newline_not_mem {digits : Text} (h : ∀ p ∈ digits, isDigit p = true) :
    Point.char '\n' ∉ digits :=
  fun hmem => absurd (h _ hmem) (by decide)

theorem ofDigits?_ofNat (b : Bool) (n : Nat) : ofDigits? b (ofNat n) = some ⟨b, ofNat n⟩ :=
  ofDigits?_eq_some.mpr ⟨rfl, ofNat_ne_nil n, fun _ hp => isDigit_of_mem_ofNat hp⟩

/-- Digits are a numeral in a field, with either sign before them or none. -/
theorem ofField?_append {sign digits : Text} (hsign : sign = [] ∨ sign = "+" ∨ sign = "-")
    (hne : digits ≠ []) (hdigits : ∀ p ∈ digits, isDigit p = true) :
    ofField? (sign ++ digits) = some ⟨decide (sign = "-"), digits⟩ := by
  have hread (b : Bool) : ofDigits? b digits = some ⟨b, digits⟩ :=
    ofDigits?_eq_some.mpr ⟨rfl, hne, hdigits⟩
  have hnewline : Point.char '\n' ∉ sign ++ digits := by
    rw [List.mem_append, not_or]
    refine ⟨?_, newline_not_mem hdigits⟩
    rcases hsign with rfl | rfl | rfl <;> decide
  rw [ofField?, dropFinalNewline_of_not_mem hnewline]
  rcases hsign with rfl | rfl | rfl
  · obtain ⟨p, u, rfl⟩ := List.exists_cons_of_ne_nil hne
    have hp := hdigits p List.mem_cons_self
    have hminus : p ≠ .char '-' := by
      rintro rfl
      exact absurd hp (by decide)
    have hplus : p ≠ .char '+' := by
      rintro rfl
      exact absurd hp (by decide)
    show (if p = .char '-' then _ else if p = .char '+' then _ else _) = _
    rw [if_neg hminus, if_neg hplus, hread]
    rfl
  · exact hread false
  · exact hread true

/-- The written form of an integer is a numeral, in a field and in a command. -/
theorem ofField?_ofInt (n : Int) :
    ofField? (ofInt n) = some ⟨decide (n < 0), ofNat n.natAbs⟩ := by
  have hdigits : ∀ p ∈ ofNat n.natAbs, isDigit p = true := fun _ => isDigit_of_mem_ofNat
  rcases Int.lt_or_le n 0 with h | h
  · rw [ofInt_of_neg h, decide_eq_true h]
    show ofField? (("-" : Text) ++ ofNat n.natAbs) = _
    exact ofField?_append (Or.inr (Or.inr rfl)) (ofNat_ne_nil _) hdigits
  · rw [ofInt_of_nonneg h, decide_eq_false (by omega)]
    exact ofField?_append (Or.inl rfl) (ofNat_ne_nil _) hdigits

theorem ofWord?_ofInt (n : Int) :
    ofWord? (ofInt n) = some ⟨decide (n < 0), ofNat n.natAbs⟩ := by
  rcases Int.lt_or_le n 0 with h | h
  · rw [ofInt_of_neg h, ofWord?, if_pos rfl, ofDigits?_ofNat, decide_eq_true h]
  · rw [ofInt_of_nonneg h, decide_eq_false (by omega)]
    cases hn : ofNat n.natAbs with
    | nil => exact absurd hn (ofNat_ne_nil _)
    | cons p u =>
      have hp : p ≠ .char '-' := by
        rintro rfl
        have hd := isDigit_of_mem_ofNat (hn ▸ List.mem_cons_self)
        exact absurd hd (by decide)
      rw [ofWord?, if_neg hp, ← hn, ofDigits?_ofNat]

theorem toInt_ofNat (n : Int) : toInt ⟨decide (n < 0), ofNat n.natAbs⟩ = n := by
  rw [toInt, digitsFrom_ofNat]
  by_cases h : n < 0
  · rw [decide_eq_true h, if_pos rfl]
    omega
  · rw [decide_eq_false h, if_neg Bool.false_ne_true]
    omega

theorem value_ofNat (n : Value) : value ⟨decide (n.val < 0), ofNat n.val.natAbs⟩ = .ok n := by
  have hdigits : (ofNat n.val.natAbs).length ≤ maxDigits := of_decide_eq_true n.property
  exact (value_of_length_le hdigits).trans
    (congrArg Except.ok (Subtype.ext (toInt_ofNat n.val)))

end Numeral

end Text

namespace Cell

/-- An integer that was written is read back. -/
theorem readInt_ofInt {n : Int} (h : n.natAbs < Text.Numeral.bound Text.Numeral.maxDigits) :
    readInt (.ofInt n) = .ok n := by
  have hvalue := Text.Numeral.value_ofNat ⟨n, Text.Numeral.isShort_iff.mpr h⟩
  rw [readInt, Text.Numeral.ofField?_ofInt]
  dsimp only
  rw [hvalue]
  rfl

/-- An integer that is read is below the bound. -/
theorem natAbs_lt_bound {field : Text} {n : Int} (h : readInt field = .ok n) :
    n.natAbs < Text.Numeral.bound Text.Numeral.maxDigits := by
  have hread : read .numeric field = .ok (numeric (some n)) := map_eq_ok.mpr ⟨n, h, rfl⟩
  exact Text.Numeral.isShort_iff.mp (isWritable_of_read hread)

end Cell

end TableAlgebra
