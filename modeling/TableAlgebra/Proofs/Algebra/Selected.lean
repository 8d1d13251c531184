import TableAlgebra.Algebra.Select
import TableAlgebra.Proofs.Cell.Order
import TableAlgebra.Proofs.Text.Decimal

/-!
# What a selection takes

A cell of the literal's kind is below the literal, equal to it or above it, and that decides which
comparators take its row. The order goes by the written forms and equality by the payloads, and they
come apart in one place only: a null text writes the empty text but is not equal to it, so it is on
no side and no comparator takes it.

* `IsLiteralFor`       the literals that a kind has a value for;
* `Cell.side`          the side of a value on which a cell is;
* `holds_lt_eq_side`, `holds_eq_eq_side`, `holds_gt_eq_side`   what the comparators make of it;
* `side_eq_none_iff`   the null text beside the empty one;
* `select_of_column`   a selection on a column that exists, by a literal with a value;
* `select_partition`   the rows that the five comparators take.
-/

namespace TableAlgebra

/-! ### Literals -/

namespace Algebra

open Text.Numeral (maxDigits)

/-- The literal writes a value of the kind. Any text writes a text; an integer is written, less the
blanks around it, in no more than `maxDigits` digits, with perhaps a sign before them. -/
def IsLiteralFor : Kind → Text → Prop
  | .text, _ => True
  | .numeric, literal => ∃ sign digits : Text, literal.strip = sign ++ digits ∧
      (sign = [] ∨ sign = "+" ∨ sign = "-") ∧ 1 ≤ digits.length ∧ digits.length ≤ maxDigits ∧
      ∀ p ∈ digits, Text.isDigit p = true

theorem exists_readLiteral {k : Kind} {literal : Text} (h : IsLiteralFor k literal) :
    ∃ value, readLiteral k literal = .ok value := by
  cases k with
  | text => exact ⟨_, rfl⟩
  | numeric =>
    obtain ⟨sign, digits, hstrip, hsign, hsome, hmax, hdigits⟩ := h
    have hne : digits ≠ [] := List.ne_nil_of_length_pos hsome
    rw [readLiteral, hstrip, Cell.read, Cell.readInt,
      Text.Numeral.ofField?_append hsign hne hdigits]
    dsimp only
    rw [Text.Numeral.value_of_length_le hmax]
    exact ⟨_, rfl⟩

theorem kind_of_readLiteral {k : Kind} {literal : Text} {value : Cell}
    (h : readLiteral k literal = .ok value) : value.kind = k := Cell.kind_of_read h

end Algebra

/-! ### Sides -/

namespace Cell

/-- The side of a value on which a cell is. It is on none if it ties with the value without being
equal to it. -/
def side (a value : Cell) : Option Ordering :=
  if a = value then some .eq
  else if a.order value < 0 then some .lt
  else if 0 < a.order value then some .gt
  else none

theorem order_self (a : Cell) : a.order a = 0 :=
  (order_eq_zero_iff rfl).mpr (Or.inl rfl)

theorem side_cases (a value : Cell) :
    (a = value ∧ a.order value = 0 ∧ a.side value = some .eq) ∨
    (a ≠ value ∧ a.order value < 0 ∧ a.side value = some .lt) ∨
    (a ≠ value ∧ 0 < a.order value ∧ a.side value = some .gt) ∨
    (a ≠ value ∧ a.order value = 0 ∧ a.side value = none) := by
  unfold side
  by_cases heq : a = value
  · rw [if_pos heq]
    exact Or.inl ⟨heq, heq ▸ order_self a, rfl⟩
  · rw [if_neg heq]
    refine Or.inr ?_
    rcases Int.lt_trichotomy (a.order value) 0 with h | h | h
    · rw [if_pos h]
      exact Or.inl ⟨heq, h, rfl⟩
    · rw [if_neg (by omega), if_neg (by omega)]
      exact Or.inr (Or.inr ⟨heq, h, rfl⟩)
    · rw [if_neg (by omega), if_pos h]
      exact Or.inr (Or.inl ⟨heq, h, rfl⟩)

theorem side_eq_none_iff {a value : Cell} :
    a.side value = none ↔ a ≠ value ∧ a.order value = 0 := by
  rcases side_cases a value with ⟨h, hc, hs⟩ | ⟨h, hc, hs⟩ | ⟨h, hc, hs⟩ | ⟨h, hc, hs⟩
  · exact iff_of_false (by simp [hs]) fun hnone => hnone.1 h
  · exact iff_of_false (by simp [hs]) (by omega)
  · exact iff_of_false (by simp [hs]) (by omega)
  · exact iff_of_true hs ⟨h, hc⟩

theorem holds_lt_eq_side (a value : Cell) :
    Comparator.lt.holds a value = decide (a.side value = some .lt) := by
  show decide (a.order value < 0) = _
  rcases side_cases a value with ⟨-, hc, hs⟩ | ⟨-, hc, hs⟩ | ⟨-, hc, hs⟩ | ⟨-, hc, hs⟩ <;>
    simp [hs] <;> omega

theorem holds_gt_eq_side (a value : Cell) :
    Comparator.gt.holds a value = decide (a.side value = some .gt) := by
  show decide (0 < a.order value) = _
  rcases side_cases a value with ⟨-, hc, hs⟩ | ⟨-, hc, hs⟩ | ⟨-, hc, hs⟩ | ⟨-, hc, hs⟩ <;>
    simp [hs] <;> omega

theorem holds_eq_eq_side (a value : Cell) :
    Comparator.eq.holds a value = decide (a.side value = some .eq) := by
  show decide (a = value) = _
  rcases side_cases a value with ⟨h, -, hs⟩ | ⟨h, -, hs⟩ | ⟨h, -, hs⟩ | ⟨h, -, hs⟩ <;> rw [hs] <;>
    simp [h]

theorem holds_le_eq_side (a value : Cell) :
    Comparator.le.holds a value = decide (a.side value = some .lt ∨ a.side value = some .eq) := by
  rw [Comparator.holds_le, holds_lt_eq_side, holds_eq_eq_side, Bool.decide_or]

theorem holds_ge_eq_side (a value : Cell) :
    Comparator.ge.holds a value = decide (a.side value = some .gt ∨ a.side value = some .eq) := by
  rw [Comparator.holds_ge, holds_gt_eq_side, holds_eq_eq_side, Bool.decide_or]

end Cell

/-! ### Selections -/

namespace Algebra

theorem select_of_column {t : Table} (h : t.RowsConform) {symbol literal : Text} {k : Comparator}
    {c : Nat} {value : Cell} (hsymbol : Comparator.read symbol = .ok k) (hc : c < t.width)
    (hvalue : readLiteral (t.kind c) literal = .ok value) (legacy : Bool) :
    select t c symbol literal legacy = .ok (selectRows t c (k.test legacy) value) := by
  rw [select_eq h, hsymbol, Table.position_natCast hc]
  show (readLiteral (t.kind c) literal >>= fun value => _) = _
  rw [hvalue]
  rfl

theorem rows_selectRows {t : Table} (h : t.RowsConform) (c : Nat) (relation : Cell → Cell → Bool)
    (value : Cell) :
    (selectRows t c relation value).rows = t.rows.filter fun a => relation (a.cell c) value :=
  rows_keep h _

/-- A cell is told apart from a literal with which it ties only if it is a null text and the literal
writes the empty one. -/
theorem side_readLiteral_eq_none_iff {k : Kind} {literal : Text} {value a : Cell}
    (hvalue : readLiteral k literal = .ok value) (ha : a.kind = k) :
    a.side value = none ↔ a = .null .text ∧ literal.strip = [] := by
  rw [Cell.side_eq_none_iff, Cell.order_eq_zero_iff (ha.trans (kind_of_readLiteral hvalue).symm)]
  cases k with
  | text =>
    cases hvalue
    constructor
    · rintro ⟨hne, h | ⟨h, hempty⟩ | ⟨-, h⟩⟩
      · exact absurd h hne
      · exact ⟨h, Option.some.inj (Cell.text.inj hempty)⟩
      · cases h
    · rintro ⟨rfl, hempty⟩
      exact ⟨nofun, Or.inr (Or.inl ⟨rfl, by rw [hempty]⟩)⟩
  | numeric =>
    have hnot (v : Option Text) : a ≠ .text v := by
      rintro rfl
      cases ha
    refine iff_of_false ?_ fun h => hnot none h.1
    rintro ⟨hne, h | ⟨h, -⟩ | ⟨h, -⟩⟩
    · exact hne h
    · exact hnot none h
    · exact hnot (some []) h

/-- A null comes before every integer. -/
theorem side_null_number {literal : Text} {value : Cell}
    (hvalue : readLiteral .numeric literal = .ok value) :
    (Cell.null .numeric).side value = some .lt := by
  obtain ⟨n, -, rfl⟩ := map_eq_ok.mp hvalue
  have hle := Cell.order_null_nonpos .numeric (.numeric (some n))
  have hne : (Cell.null .numeric).order (.numeric (some n)) ≠ 0 := Cell.order_null_number_ne n
  rw [Cell.side, if_neg nofun, if_pos (by omega)]

/-- Below, at and above the literal there are rows of their own, each once, and only a null text
beside a literal that writes the empty one is in none of them. The comparators that admit equality
take two of the sides, or in legacy mode equality alone. -/
theorem select_partition {t : Table} (ht : t.WellFormed) {c : Nat} (hc : c < t.width)
    {literal : Text} (hliteral : IsLiteralFor (t.kind c) literal) :
    ∃ value, readLiteral (t.kind c) literal = .ok value ∧ ∃ result : Comparator → Table,
      (∀ symbol k, Comparator.read symbol = .ok k →
        select t c symbol literal = .ok (result k) ∧
        select t c symbol literal true = .ok (result (if k = .le ∨ k = .ge then .eq else k))) ∧
      (∀ k, (result k).schema = t.schema ∧ (result k).header = t.header) ∧
      (result .lt).rows = t.rows.filter (fun a => (a.cell c).side value = some .lt) ∧
      (result .eq).rows = t.rows.filter (fun a => (a.cell c).side value = some .eq) ∧
      (result .gt).rows = t.rows.filter (fun a => (a.cell c).side value = some .gt) ∧
      (result .le).rows = t.rows.filter (fun a =>
        (a.cell c).side value = some .lt ∨ (a.cell c).side value = some .eq) ∧
      (result .ge).rows = t.rows.filter (fun a =>
        (a.cell c).side value = some .gt ∨ (a.cell c).side value = some .eq) ∧
      (∀ a ∈ t.rows, (a.cell c).side value = none ↔
        a.cell c = .null .text ∧ literal.strip = []) ∧
      ∀ a ∈ t.rows, a.cell c = .null .numeric → (a.cell c).side value = some .lt := by
  obtain ⟨value, hvalue⟩ := exists_readLiteral hliteral
  refine ⟨value, hvalue, fun k => selectRows t c k.holds value, fun symbol k hsymbol => ⟨?_, ?_⟩,
    fun k => ⟨rfl, header_keep ht.header _⟩, ?_, ?_, ?_, ?_, ?_, fun a ha => ?_, fun a ha hnull => ?_⟩
  · exact select_of_column ht.rows hsymbol hc hvalue false
  · rw [select_of_column ht.rows hsymbol hc hvalue true]
    cases k <;> rfl
  · simp only [rows_selectRows ht.rows, Cell.holds_lt_eq_side]
  · simp only [rows_selectRows ht.rows, Cell.holds_eq_eq_side]
  · simp only [rows_selectRows ht.rows, Cell.holds_gt_eq_side]
  · simp only [rows_selectRows ht.rows, Cell.holds_le_eq_side]
  · simp only [rows_selectRows ht.rows, Cell.holds_ge_eq_side]
  · exact side_readLiteral_eq_none_iff hvalue (ht.rows.kind_eq ha c)
  · have hnumeric : t.kind c = .numeric := by
      rw [← ht.rows.kind_eq ha c, hnull]
      rfl
    rw [hnumeric] at hvalue
    rw [hnull]
    exact side_null_number hvalue

/-! ### Nulls and ties -/

namespace Sample

def marks : Table :=
  { schema := [.numeric, .text], header := ["mark", "note"],
    rows := [[.numeric (some 2), .text (some [])], [.numeric none, .text none],
      [.numeric (some 1), .text (some "b")], [.numeric (some 2), .text (some [])],
      [.numeric (some 10), .text (some " ")]] }

end Sample

/-- The missing mark is below a mark of two, and ten is above it. Beside a note of blanks the missing
note is on no side, and the note of one blank is above it. -/
theorem select_partition_sample :
    Sample.marks.WellFormed ∧ 0 < Sample.marks.width ∧ 1 < Sample.marks.width ∧
      IsLiteralFor (Sample.marks.kind 0) " +2\t" ∧ IsLiteralFor (Sample.marks.kind 1) "  " ∧
      (∃ u v, select Sample.marks 0 "<" " +2\t" = .ok u ∧ u.rows = [[.numeric none, .text none],
          [.numeric (some 1), .text (some "b")]] ∧
        select Sample.marks 0 "<=" " +2\t" true = .ok v ∧ v.rows =
          [[.numeric (some 2), .text (some [])], [.numeric (some 2), .text (some [])]]) ∧
      ∃ u v, select Sample.marks 1 "<=" "  " = .ok u ∧
        u.rows = [[.numeric (some 2), .text (some [])], [.numeric (some 2), .text (some [])]] ∧
        select Sample.marks 1 ">" "  " = .ok v ∧ v.rows = [[.numeric (some 1), .text (some "b")],
          [.numeric (some 10), .text (some " ")]] := by
  have h : Sample.marks.WellFormed := by decide
  have hmark : IsLiteralFor (Sample.marks.kind 0) " +2\t" :=
    ⟨"+", "2", by decide, by decide, by decide, by decide, by decide⟩
  have hnote : IsLiteralFor (Sample.marks.kind 1) "  " := trivial
  obtain ⟨m, hm, marks, hmarks, -, hlt, heq, -⟩ := select_partition h (by decide) hmark
  obtain ⟨n, hn, notes, hnotes, -, -, -, hgt, hle, -⟩ := select_partition h (by decide) hnote
  cases hm
  cases hn
  exact ⟨h, by decide, by decide, hmark, hnote,
    ⟨_, _, (hmarks "<" .lt rfl).1, hlt.trans (by decide), (hmarks "<=" .le rfl).2,
      heq.trans (by decide)⟩,
    _, _, (hnotes "<=" .le rfl).1, hle.trans (by decide), (hnotes ">" .gt rfl).1,
    hgt.trans (by decide)⟩

end Algebra

end TableAlgebra
