import Mathlib.Data.Nat.Digits.Defs
import Mathlib.Tactic.Ring
import TableAlgebra.Proofs.Text.Decimal

/-!
# Integers in fields

A field is an integer if it has digits of any script, with a sign before them or none, and nothing
else but one line feed at the end. If there are too many digits, it is a numeral without a value.

* `Numeral.Fills num field`   the field is the numeral, whatever its length;
* `ofField?_eq_some`          reading a field finds the numeral that fills it;
* `Numeral.placeValue`        its value by the places of its digits; `Fills.toInt_eq`;
* `readInt_eq_ok`, `readInt_eq_error`   what comes of reading an integer;
* `read_written_numeric`      what is read again after it was written;
* `readInt_spec`              reading, and reading again.
-/

namespace TableAlgebra

namespace Text.Numeral

/-- The field is the numeral: a sign or none, digits, and a line feed or none. -/
structure Fills (num : Numeral) (field : Text) : Prop where
  some : num.digits ≠ []
  digits : ∀ p ∈ num.digits, isDigit p = true
  parts : ∃ sign last : Text, (sign = [] ∨ sign = "+" ∨ sign = "-") ∧
    (num.negative = true ↔ sign = "-") ∧ (last = [] ∨ last = "\n") ∧
    field = sign ++ num.digits ++ last

theorem dropFinalNewline_append (t : Text) :
    ∃ last : Text, (last = [] ∨ last = "\n") ∧ dropFinalNewline t ++ last = t := by
  unfold dropFinalNewline
  split
  · next hlast =>
    obtain ⟨u, rfl⟩ := List.getLast?_eq_some_iff.mp hlast
    exact ⟨"\n", Or.inr rfl, congrArg (· ++ ("\n" : Text)) List.dropLast_concat⟩
  · exact ⟨[], Or.inl rfl, List.append_nil t⟩

theorem ofField?_newline {t : Text} (h : .char '\n' ∉ t) : ofField? (t ++ "\n") = ofField? t := by
  have hdrop : dropFinalNewline (t ++ "\n") = t :=
    (if_pos List.getLast?_concat).trans List.dropLast_concat
  rw [ofField?, ofField?, hdrop, dropFinalNewline_of_not_mem h]

theorem fills_of_ofDigits? {b : Bool} {digits last : Text} {num : Numeral}
    (h : ofDigits? b digits = some num) {sign : Text} (hsign : sign = [] ∨ sign = "+" ∨ sign = "-")
    (hb : b = true ↔ sign = "-") (hlast : last = [] ∨ last = "\n") :
    num.Fills (sign ++ digits ++ last) := by
  obtain ⟨rfl, hne, hdigits⟩ := ofDigits?_eq_some.mp h
  exact ⟨hne, hdigits, sign, last, hsign, hb, hlast, rfl⟩

theorem ofField?_eq_some {field : Text} {num : Numeral} :
    ofField? field = some num ↔ num.Fills field := by
  constructor
  · intro h
    obtain ⟨last, hlast, hfield⟩ := dropFinalNewline_append field
    unfold ofField? at h
    split at h
    · cases h
    · next p u hdrop =>
      rw [hdrop] at hfield
      rw [← hfield]
      split at h
      · next hminus =>
        subst hminus
        exact fills_of_ofDigits? h (Or.inr (Or.inr rfl)) (by decide) hlast
      · split at h
        · next hplus =>
          subst hplus
          exact fills_of_ofDigits? h (Or.inr (Or.inl rfl)) (by decide) hlast
        · exact fills_of_ofDigits? h (Or.inl rfl) (by decide) hlast
  · rintro ⟨hne, hdigits, sign, last, hsign, hnegative, hlast, rfl⟩
    have hread := ofField?_append hsign hne hdigits
    have hnum : decide (sign = "-") = num.negative :=
      Bool.eq_iff_iff.mpr (decide_eq_true_iff.trans hnegative.symm)
    rw [hnum] at hread
    rcases hlast with rfl | rfl
    · rw [List.append_nil, hread]
    · rw [ofField?_newline, hread]
      rw [List.mem_append, not_or]
      refine ⟨?_, newline_not_mem hdigits⟩
      rcases hsign with rfl | rfl | rfl <;> decide

/-! ### Values by places -/

theorem bound_pos (digits : Nat) : 0 < bound digits := Nat.pow_pos (by decide)

/-- The digits count by their places, ones last. -/
theorem digitsFrom_eq_ofDigits {t : Text} (h : ∀ p ∈ t, isDigit p = true) (n : Nat) :
    digitsFrom n t = n * 10 ^ t.length + Nat.ofDigits 10 (t.filterMap digit?).reverse := by
  induction t generalizing n with
  | nil => simp [digitsFrom_nil]
  | cons p t ih =>
    obtain ⟨hp, ht⟩ := List.forall_mem_cons.mp h
    obtain ⟨d, hd⟩ := Option.isSome_iff_exists.mp hp
    have hlength : (t.filterMap digit?).length = t.length :=
      List.filterMap_length_eq_length.mpr ht
    rw [digitsFrom_cons, ih ht, hd, Option.getD_some, List.filterMap_cons_some hd,
      Nat.ofDigits_reverse_cons, hlength, List.length_cons]
    ring

/-- The value of a numeral by the places of its digits. -/
def placeValue (num : Numeral) : Int :=
  (if num.negative then -1 else 1) * (Nat.ofDigits 10 (num.digits.filterMap digit?).reverse : Nat)

theorem Fills.toInt_eq {num : Numeral} {field : Text} (h : num.Fills field) :
    num.toInt = num.placeValue := by
  have hdigits : digitsFrom 0 num.digits =
      Nat.ofDigits 10 (num.digits.filterMap digit?).reverse := by
    simpa using digitsFrom_eq_ofDigits h.digits 0
  rw [toInt, placeValue, hdigits]
  split
  · exact (Int.neg_one_mul _).symm
  · exact (Int.one_mul _).symm

end Text.Numeral

namespace Cell

open Text (Numeral)

theorem readInt_eq_ok {field : Text} {n : Int} :
    readInt field = .ok n ↔
      ∃ num : Numeral, num.Fills field ∧ num.digits.length ≤ Numeral.maxDigits ∧ num.toInt = n := by
  simp only [← Numeral.ofField?_eq_some]
  rw [readInt]
  cases hnum : Numeral.ofField? field with
  | none =>
    refine iff_of_false (fun h => ?_) ?_
    · cases h
    · rintro ⟨_, h, _⟩
      cases h
  | some num =>
    show (num.value.map Subtype.val).mapError _ = _ ↔ _
    rw [mapError_eq_ok, map_eq_ok]
    constructor
    · rintro ⟨value, hvalue, rfl⟩
      rcases Nat.lt_or_ge Numeral.maxDigits num.digits.length with hlong | hlength
      · rw [Numeral.value_of_lt_length hlong] at hvalue
        cases hvalue
      · rw [Numeral.value_of_length_le hlength] at hvalue
        cases hvalue
        exact ⟨num, rfl, hlength, rfl⟩
    · rintro ⟨_, hsome, hlength, rfl⟩
      cases hsome
      exact ⟨_, Numeral.value_of_length_le hlength, rfl⟩

theorem readInt_eq_error {field : Text} {e : Error} :
    readInt field = .error e ↔
      ((∀ num : Numeral, ¬num.Fills field) ∧ e = .notInteger field) ∨
      ∃ num : Numeral, num.Fills field ∧ Numeral.maxDigits < num.digits.length ∧
        e = .tooManyDigits num.digits.length := by
  simp only [← Numeral.ofField?_eq_some]
  rw [readInt]
  cases hnum : Numeral.ofField? field with
  | none =>
    constructor
    · intro h
      cases h
      exact Or.inl ⟨fun _ => (Option.some_ne_none _).symm, rfl⟩
    · rintro (⟨_, rfl⟩ | ⟨_, h, _⟩)
      · rfl
      · cases h
  | some num =>
    show (num.value.map Subtype.val).mapError _ = _ ↔ _
    rw [mapError_eq_error]
    simp only [map_eq_error]
    constructor
    · rintro ⟨n, hvalue, rfl⟩
      rcases Nat.lt_or_ge Numeral.maxDigits num.digits.length with hlong | hlength
      · rw [Numeral.value_of_lt_length hlong] at hvalue
        cases hvalue
        exact Or.inr ⟨num, rfl, hlong, rfl⟩
      · rw [Numeral.value_of_length_le hlength] at hvalue
        cases hvalue
    · rintro (⟨h, _⟩ | ⟨_, hsome, hlong, rfl⟩)
      · exact absurd rfl (h num)
      · cases hsome
        exact ⟨_, Numeral.value_of_lt_length hlong, rfl⟩

/-! ### Reading again -/

theorem read_written_numeric {n : Int} (h : n.natAbs < Numeral.bound Numeral.maxDigits) :
    (numeric (some n)).write >>= read .numeric = .ok (numeric (some n)) := by
  rw [write, Numeral.isShort_iff.mpr h]
  exact map_eq_ok.mpr ⟨n, readInt_ofInt h, rfl⟩

theorem read_written_of_read {field : Text} {c : Cell} (h : read .numeric field = .ok c) :
    c.write >>= read .numeric = .ok c := by
  obtain ⟨n, hn, rfl⟩ := map_eq_ok.mp h
  exact read_written_numeric (natAbs_lt_bound hn)

/-- An integer is read from a field just if the field is a numeral of no more than `maxDigits`
digits, and is the value of these digits by their places; a longer numeral is refused as such, and
every other field as no integer. What is written of an integer below the bound gives it back, and so
does what is written of anything that was read. -/
theorem readInt_spec (field : Text) :
    (∀ n, readInt field = .ok n ↔ ∃ num : Numeral, num.Fills field ∧
      num.digits.length ≤ Numeral.maxDigits ∧ num.placeValue = n) ∧
    (∀ e, readInt field = .error e ↔
      ((∀ num : Numeral, ¬num.Fills field) ∧ e = .notInteger field) ∨
      ∃ num : Numeral, num.Fills field ∧ Numeral.maxDigits < num.digits.length ∧
        e = .tooManyDigits num.digits.length) ∧
    (∀ n : Int, n.natAbs < Numeral.bound Numeral.maxDigits →
      (numeric (some n)).write >>= read .numeric = .ok (numeric (some n))) ∧
    ∀ c, read .numeric field = .ok c → c.write >>= read .numeric = .ok c := by
  refine ⟨fun n => ?_, fun e => readInt_eq_error, fun n => read_written_numeric,
    fun c => read_written_of_read⟩
  rw [readInt_eq_ok]
  refine exists_congr fun num => and_congr_right fun hfills => ?_
  rw [hfills.toInt_eq]

/-- Digits of another script, with a zero before them and a line feed behind, are read as the number
that is written without these. The greatest number below the bound is read again too. -/
theorem readInt_spec_sample :
    readInt "-०४२\n" = .ok (-42) ∧
      read .numeric "-०४२\n" = .ok (numeric (some (-42))) ∧
      (numeric (some (-42))).write >>= read .numeric = .ok (numeric (some (-42))) ∧
      ∃ n : Int, n.natAbs < Numeral.bound Numeral.maxDigits ∧
        n.natAbs + 1 = Numeral.bound Numeral.maxDigits ∧
        (numeric (some n)).write >>= read .numeric = .ok (numeric (some n)) := by
  obtain ⟨hok, -, hwritten, hagain⟩ := readInt_spec "-०४२\n"
  have hread : readInt "-०४२\n" = .ok (-42) := by
    refine (hok (-42)).mpr ⟨⟨true, "०४२"⟩, ?_, by decide, by decide⟩
    exact ⟨by decide, by decide, "-", "\n", by decide, by decide, by decide, by decide⟩
  have hcell : read .numeric "-०४२\n" = .ok (numeric (some (-42))) := by
    rw [read, hread]
    rfl
  obtain ⟨m, hm⟩ := Nat.exists_eq_succ_of_ne_zero (Nat.ne_of_gt (Numeral.bound_pos _))
  have hlt : (m : Int).natAbs < Numeral.bound Numeral.maxDigits := by
    rw [hm]
    exact Nat.lt_succ_self m
  have hsucc : (m : Int).natAbs + 1 = Numeral.bound Numeral.maxDigits := by
    rw [Int.natAbs_natCast, hm]
  exact ⟨hread, hcell, hagain _ hcell, m, hlt, hsucc, hwritten m hlt⟩

end Cell

end TableAlgebra
