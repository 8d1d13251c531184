import Mathlib.Data.List.Lex
import TableAlgebra.Proofs.Text.Decimal

/-!
# The order of cells

Texts are in a total order, that of the numbers of their code points. Cells of one kind are in a
total preorder, in which a null text and the empty text tie. Cells of both kinds need not be, so the
law that joins three cells asks for one kind. An integer of too many digits can be compared with
another integer only.

* `order_swap`    the other way round the comparison has the other sign;
* `order_trans`   cells of one kind are in a transitive order;
* `order_null`    a null comes first, and ties with what writes nothing;
* `order_eq_zero_iff`   cells of one kind tie if they are equal, or one is a null text and the
                    other the empty one;
* `Clashes`       the cells that cannot be compared: `isComparable_eq_false_iff`;
* `compare_laws`    the three laws together, for the comparisons that answer.
-/

namespace TableAlgebra

/-! ### Texts -/

namespace Text

/-- The order of the code points by their numbers. -/
abbrev Point.linearOrder : LinearOrder Point :=
  LinearOrder.lift' Point.number fun _ _ => Point.number_inj.mp

theorem lt_or_eq_or_lt (s t : Text) : s < t ∨ s = t ∨ t < s := by
  let _ := Point.linearOrder
  exact lt_trichotomy s t

theorem not_lt_of_lt {s t : Text} (h : s < t) : ¬t < s := by
  let _ := Point.linearOrder
  exact lt_asymm h

theorem not_lt_trans {s t u : Text} (hst : ¬t < s) (htu : ¬u < t) : ¬u < s := by
  let _ := Point.linearOrder
  exact not_lt.mpr (le_trans (not_lt.mp hst) (not_lt.mp htu))

end Text

namespace Cell

open Text.Numeral (bound maxDigits)

theorem compareText_of_lt {s t : Text} (h : s < t) : compareText s t = -1 := if_pos h

theorem compareText_self (s : Text) : compareText s s = 0 := by
  have hirrefl : ¬s < s := fun h => Text.not_lt_of_lt h h
  rw [compareText, if_neg hirrefl, if_pos rfl]

theorem compareText_of_gt {s t : Text} (h : t < s) : compareText s t = 1 := by
  have hne : s ≠ t := fun e => Text.not_lt_of_lt (e ▸ h) (e ▸ h)
  rw [compareText, if_neg (Text.not_lt_of_lt h), if_neg hne]

theorem compareText_swap (s t : Text) : compareText t s = -compareText s t := by
  rcases Text.lt_or_eq_or_lt s t with h | rfl | h
  · rw [compareText_of_lt h, compareText_of_gt h]
    rfl
  · rw [compareText_self]
    rfl
  · rw [compareText_of_lt h, compareText_of_gt h]

theorem compareText_nonpos_iff {s t : Text} : compareText s t ≤ 0 ↔ ¬t < s := by
  rcases Text.lt_or_eq_or_lt s t with h | rfl | h
  · rw [compareText_of_lt h]
    exact iff_of_true (by decide) (Text.not_lt_of_lt h)
  · rw [compareText_self]
    exact iff_of_true (Int.le_refl 0) fun h => Text.not_lt_of_lt h h
  · rw [compareText_of_gt h]
    exact iff_of_false (by decide) (not_not_intro h)

theorem compareText_eq_zero_iff {s t : Text} : compareText s t = 0 ↔ s = t := by
  rcases Text.lt_or_eq_or_lt s t with h | rfl | h
  · rw [compareText_of_lt h]
    exact iff_of_false (by decide) fun e => Text.not_lt_of_lt (e ▸ h) (e ▸ h)
  · exact iff_of_true (compareText_self s) rfl
  · rw [compareText_of_gt h]
    exact iff_of_false (by decide) fun e => Text.not_lt_of_lt (e ▸ h) (e ▸ h)

theorem compareText_trans {s t u : Text} (hst : compareText s t ≤ 0) (htu : compareText t u ≤ 0) :
    compareText s u ≤ 0 := by
  rw [compareText_nonpos_iff] at *
  exact Text.not_lt_trans hst htu

theorem compareText_nil_cons (p : Text.Point) (t : Text) : compareText [] (p :: t) = -1 :=
  compareText_of_lt (List.nil_lt_cons p t)

/-! ### Cells -/

theorem order_swap (a b : Cell) : b.order a = -a.order b := by
  cases a with
  | text v =>
    cases b with
    | text w => rw [order_text, order_text, compareText_swap]
    | numeric n => cases n <;> exact compareText_swap ..
  | numeric m =>
    cases b with
    | text w => cases m <;> exact compareText_swap ..
    | numeric n =>
      cases m with
      | none => cases n <;> exact compareText_swap ..
      | some m =>
        cases n with
        | none => exact compareText_swap ..
        | some n =>
          rw [order_numeric, order_numeric]
          omega

theorem order_null (k : Kind) (c : Cell) : (null k).order c = compareText [] c.written := by
  cases k <;> rfl

theorem order_null_nonpos (k : Kind) (c : Cell) : (null k).order c ≤ 0 := by
  rw [order_null]
  cases c.written with
  | nil => exact Int.le_of_eq (compareText_self [])
  | cons p t =>
    rw [compareText_nil_cons]
    decide

theorem order_null_eq_zero_iff {k : Kind} {c : Cell} :
    (null k).order c = 0 ↔ c.written = [] := by
  rw [order_null]
  cases c.written with
  | nil => exact iff_of_true (compareText_self []) rfl
  | cons p t =>
    rw [compareText_nil_cons]
    exact iff_of_false (by decide) (List.cons_ne_nil p t)

theorem not_order_null_nonpos {k : Kind} {c : Cell} (h : c.written ≠ []) :
    ¬c.order (null k) ≤ 0 := by
  have hle := order_null_nonpos k c
  have hne : (null k).order c ≠ 0 := fun e => h (order_null_eq_zero_iff.mp e)
  have hswap := order_swap (null k) c
  omega

theorem written_eq_nil_iff {c : Cell} :
    c.written = [] ↔ c.isNull = true ∨ c = .text (some []) := by
  cases c with
  | numeric v =>
    cases v with
    | none => exact iff_of_true rfl (Or.inl rfl)
    | some n => exact iff_of_false (Text.ofInt_ne_nil n) (by rintro (h | h) <;> cases h)
  | text v =>
    cases v with
    | none => exact iff_of_true rfl (Or.inl rfl)
    | some s => simp [written, isNull]

theorem order_trans {a b c : Cell} (hab : a.kind = b.kind) (hbc : b.kind = c.kind)
    (h : a.order b ≤ 0) (h' : b.order c ≤ 0) : a.order c ≤ 0 := by
  cases a with
  | text u =>
    cases b with
    | numeric n => cases hab
    | text v =>
      cases c with
      | numeric n => cases hbc
      | text w =>
        rw [order_text] at *
        exact compareText_trans h h'
  | numeric l =>
    cases b with
    | text v => cases hab
    | numeric m =>
      cases c with
      | text w => cases hbc
      | numeric n =>
        cases l with
        | none => exact order_null_nonpos .numeric _
        | some l =>
          cases m with
          | none => exact absurd h (not_order_null_nonpos (k := .numeric) (Text.ofInt_ne_nil l))
          | some m =>
            cases n with
            | none =>
              exact absurd h' (not_order_null_nonpos (k := .numeric) (Text.ofInt_ne_nil m))
            | some n =>
              rw [order_numeric] at *
              omega

theorem order_null_number_ne (n : Int) : order (numeric none) (numeric (some n)) ≠ 0 :=
  fun h => Text.ofInt_ne_nil n (order_null_eq_zero_iff (k := .numeric).mp h)

theorem order_eq_zero_iff {a b : Cell} (h : a.kind = b.kind) :
    a.order b = 0 ↔ a = b ∨ (a = text none ∧ b = text (some [])) ∨
      (a = text (some []) ∧ b = text none) := by
  cases a with
  | text v =>
    cases b with
    | numeric n => cases h
    | text w =>
      rw [order_text, compareText_eq_zero_iff]
      cases v <;> cases w <;> simp [written, eq_comm]
  | numeric m =>
    cases b with
    | text w => cases h
    | numeric n =>
      have hswap := order_swap (numeric m) (numeric n)
      cases m with
      | none =>
        cases n with
        | none => exact iff_of_true (compareText_self []) (Or.inl rfl)
        | some n => exact iff_of_false (order_null_number_ne n) (by simp)
      | some m =>
        cases n with
        | none =>
          refine iff_of_false (fun e => order_null_number_ne m ?_) (by simp)
          omega
        | some n =>
          rw [order_numeric]
          simp
          omega

/-! ### Comparisons that answer -/

/-- An integer of too many digits. -/
def IsLong (c : Cell) : Prop := ∃ n, c = numeric (some n) ∧ bound maxDigits ≤ n.natAbs

def IsInteger (c : Cell) : Prop := ∃ n, c = numeric (some n)

/-- One cell is an integer of too many digits, and the other one no integer. -/
def Clashes (a b : Cell) : Prop := (a.IsLong ∧ ¬b.IsInteger) ∨ (b.IsLong ∧ ¬a.IsInteger)

theorem isWritable_eq_false_iff {c : Cell} : c.isWritable = false ↔ c.IsLong := by
  rcases c with v | v
  · cases v with
    | none => exact iff_of_false (fun h => nomatch h) fun ⟨_, h, _⟩ => nomatch h
    | some n =>
      refine Text.Numeral.isShort_eq_false_iff.trans ⟨fun h => ⟨n, rfl, h⟩, ?_⟩
      rintro ⟨_, h, hlong⟩
      cases h
      exact hlong
  · refine iff_of_false (fun h => ?_) fun ⟨_, h, _⟩ => nomatch h
    cases v <;> cases h

theorem isComparable_eq_false_iff {a b : Cell} : a.isComparable b = false ↔ a.Clashes b := by
  by_cases hab : a.IsInteger ∧ b.IsInteger
  · obtain ⟨⟨m, rfl⟩, ⟨n, rfl⟩⟩ := hab
    refine iff_of_false (fun h => nomatch h) ?_
    rintro (⟨-, h⟩ | ⟨-, h⟩)
    · exact h ⟨n, rfl⟩
    · exact h ⟨m, rfl⟩
  · have hboth : a.isComparable b = (a.isWritable && b.isWritable) := by
      unfold isComparable
      split
      · exact absurd ⟨⟨_, rfl⟩, ⟨_, rfl⟩⟩ hab
      · rfl
    rw [hboth, Bool.and_eq_false_iff, isWritable_eq_false_iff, isWritable_eq_false_iff]
    have hinteger : ∀ {c : Cell}, c.IsLong → c.IsInteger := fun ⟨n, h, _⟩ => ⟨n, h⟩
    exact or_congr
      ⟨fun ha => ⟨ha, fun hb => hab ⟨hinteger ha, hb⟩⟩, And.left⟩
      ⟨fun hb => ⟨hb, fun ha => hab ⟨ha, hinteger hb⟩⟩, And.left⟩

theorem clashes_swap {a b : Cell} (h : a.Clashes b) : b.Clashes a := h.symm

theorem compare_of_clashes {a b : Cell} (h : a.Clashes b) :
    a.compare b = .error .integerTooLong := by
  rw [compare_eq, isComparable_eq_false_iff.mpr h]
  rfl

theorem compare_of_not_clashes {a b : Cell} (h : ¬a.Clashes b) : a.compare b = .ok (a.order b) := by
  have hc : a.isComparable b = true :=
    Bool.not_eq_false _ ▸ fun hf => h (isComparable_eq_false_iff.mp hf)
  rw [compare_eq, hc]
  rfl

theorem compare_eq_ok {a b : Cell} {d : Int} :
    a.compare b = .ok d ↔ ¬a.Clashes b ∧ a.order b = d := by
  by_cases h : a.Clashes b
  · rw [compare_of_clashes h]
    exact iff_of_false (fun e => nomatch e) fun e => e.1 h
  · rw [compare_of_not_clashes h, Except.ok.injEq]
    exact (and_iff_right h).symm

/-- Two cells that tie by kind and value do not clash. -/
theorem not_clashes_of_order_eq_zero {a b : Cell} (hk : a.kind = b.kind) (h : a.order b = 0) :
    ¬a.Clashes b := by
  rcases (order_eq_zero_iff hk).mp h with rfl | ⟨rfl, rfl⟩ | ⟨rfl, rfl⟩
  · rintro (⟨⟨n, rfl, -⟩, hn⟩ | ⟨⟨n, rfl, -⟩, hn⟩) <;> exact hn ⟨n, rfl⟩
  · rintro (⟨⟨n, h, -⟩, -⟩ | ⟨⟨n, h, -⟩, -⟩) <;> cases h
  · rintro (⟨⟨n, h, -⟩, -⟩ | ⟨⟨n, h, -⟩, -⟩) <;> cases h

/-- Two cells are compared unless they clash, and then with opposite signs the two ways round. Those
of one kind are in a transitive order, nulls included, and tie if they are equal or are the two
texts that write nothing. -/
theorem compare_laws (a b c : Cell) :
    (a.Clashes b → a.compare b = .error .integerTooLong ∧ b.compare a = .error .integerTooLong) ∧
    (¬a.Clashes b → ∃ d e, a.compare b = .ok d ∧ b.compare a = .ok e ∧ e.sign = -d.sign) ∧
    (a.kind = b.kind → b.kind = c.kind → ∀ d e : Int, a.compare b = .ok d → b.compare c = .ok e →
      d ≤ 0 → e ≤ 0 → a.Clashes c ∨ ∃ f, a.compare c = .ok f ∧ f ≤ 0) ∧
    (a.kind = b.kind → (a.compare b = .ok 0 ↔ a = b ∨
      (a = text none ∧ b = text (some [])) ∨ (a = text (some []) ∧ b = text none))) := by
  refine ⟨fun h => ?_, fun h => ?_, fun hab hbc d e hd he hle hle' => ?_, fun hk => ?_⟩
  · exact ⟨compare_of_clashes h, compare_of_clashes (clashes_swap h)⟩
  · refine ⟨_, _, compare_of_not_clashes h,
      compare_of_not_clashes fun h' => h (clashes_swap h'), ?_⟩
    rw [order_swap a b, Int.sign_neg]
  · obtain ⟨-, rfl⟩ := compare_eq_ok.mp hd
    obtain ⟨-, rfl⟩ := compare_eq_ok.mp he
    refine or_iff_not_imp_left.mpr fun h => ⟨_, compare_of_not_clashes h, ?_⟩
    exact order_trans hab hbc hle hle'
  · rw [compare_eq_ok, ← order_eq_zero_iff hk]
    exact and_iff_right_of_imp (not_clashes_of_order_eq_zero hk)

/-- A null is below every number, although it is compared with them as a text, and the null text
ties with the empty one. -/
theorem compare_laws_sample :
    (numeric none).kind = (numeric (some (-5))).kind ∧
      (numeric (some (-5))).kind = (numeric (some 3)).kind ∧
      compare (numeric none) (numeric (some (-5))) = .ok (-1) ∧
      compare (numeric (some (-5))) (numeric (some 3)) = .ok (-8) ∧
      (∃ d, compare (numeric none) (numeric (some 3)) = .ok d ∧ d ≤ 0) ∧
      (∃ d e, compare (numeric none) (numeric (some 3)) = .ok d ∧
        compare (numeric (some 3)) (numeric none) = .ok e ∧ e.sign = -d.sign) ∧
      (text none).kind = (text (some [])).kind ∧
      compare (text none) (text (some [])) = .ok 0 := by
  have hnull : compare (numeric none) (numeric (some (-5))) = .ok (-1) := by decide
  have hnumbers : compare (numeric (some (-5))) (numeric (some 3)) = .ok (-8) := by decide
  have hclash : ¬(numeric none).Clashes (numeric (some 3)) := fun h =>
    absurd (isComparable_eq_false_iff.mpr h) (by decide)
  obtain ⟨-, -, htrans, -⟩ := compare_laws (numeric none) (numeric (some (-5))) (numeric (some 3))
  obtain ⟨-, hsign, -⟩ := compare_laws (numeric none) (numeric (some 3)) (numeric none)
  obtain ⟨-, -, -, htie⟩ := compare_laws (text none) (text (some [])) (text none)
  have htriple := htrans rfl rfl _ _ hnull hnumbers (by decide) (by decide)
  have hempty := (htie rfl).mpr (.inr (.inl ⟨rfl, rfl⟩))
  exact ⟨rfl, rfl, hnull, hnumbers, htriple.resolve_left hclash, hsign hclash, rfl, hempty⟩

/-- The least number of too many digits is not compared with a null. -/
theorem not_compare_laws :
    ¬∀ a b : Cell, a.kind = b.kind → ∃ d e, a.compare b = .ok d ∧ b.compare a = .ok e ∧
      e.sign = -d.sign := by
  intro h
  obtain ⟨d, e, hd, -⟩ := h (numeric none) (numeric (some (bound maxDigits))) rfl
  have hlong : IsLong (numeric (some (bound maxDigits))) :=
    ⟨_, rfl, Text.Numeral.isShort_eq_false_iff.mp Text.Numeral.isShort_bound⟩
  have hnull : ¬IsInteger (numeric none) := fun ⟨_, hn⟩ => nomatch hn
  rw [compare_of_clashes (.inr ⟨hlong, hnull⟩)] at hd
  cases hd

/-- Numbers and texts together are in no order. -/
example : order (numeric (some 9)) (numeric (some 10)) ≤ 0 ∧
    order (numeric (some 10)) (text (some "1z")) ≤ 0 ∧
    ¬order (numeric (some 9)) (text (some "1z")) ≤ 0 := by decide

end Cell

end TableAlgebra
