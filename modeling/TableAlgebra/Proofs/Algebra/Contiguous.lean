import Mathlib.Data.List.Infix
import TableAlgebra.Proofs.Algebra.Ordered
import TableAlgebra.Proofs.Algebra.Selected

/-!
# Selections from sorted tables

In a table that is sorted by a column the rows below a literal come first, then those that tie with
it, then those above it. The comparators take one of these blocks or two that touch, so what they
select stands together in the table. Only the null texts stand between: they tie with the empty text,
but no comparator takes them.

* `filter_eq_append`        what is chosen from a list, up to a point of it and from there on;
* `order_neg_of_le`       what comes before a cell below a value is below the value too;
* `eq_iff_tie`              a cell is equal to a literal if it ties with it and is no null text;
* `rows_sortBy_eq_append`   the three blocks of a sorted table;
* `taken`, `tying`          the rows that a comparator takes, and those that tie with a literal;
* `rows_taken_eq`, `rows_taken_le`, `rows_taken_ge`   the blocks that they are made up of;
* `select_sorted`           selections from a sorted table.
-/

namespace TableAlgebra

/-! ### Lists cut in two -/

section
variable {α : Type} {p q q₁ q₂ : α → Bool} {l : List α}

theorem filter_append_filter_not (h : l.Pairwise fun a b => p b = true → p a = true) :
    l.filter p ++ l.filter (fun a => !p a) = l := by
  induction l with
  | nil => rfl
  | cons a l ih =>
    obtain ⟨hfirst, hrest⟩ := List.pairwise_cons.mp h
    rw [List.filter_cons, List.filter_cons]
    cases ha : p a with
    | true => exact congrArg (a :: ·) (ih hrest)
    | false =>
      have hfails : ∀ b ∈ l, p b = false := fun b hb =>
        Bool.eq_false_iff.mpr fun hpb => Bool.false_ne_true (ha.symm.trans (hfirst b hb hpb))
      have hnone : l.filter p = [] :=
        List.filter_eq_nil_iff.mpr fun b hb => Bool.eq_false_iff.mp (hfails b hb)
      have hall : l.filter (fun b => !p b) = l :=
        List.filter_eq_self.mpr fun b hb => by rw [hfails b hb]; rfl
      rw [hnone, hall]
      rfl

/-- In a list where a test holds up to some point, what is chosen stands before that point or after
it. -/
theorem filter_eq_append (h : l.Pairwise fun a b => p b = true → p a = true)
    (h₁ : ∀ a ∈ l, (p a && q a) = q₁ a) (h₂ : ∀ a ∈ l, (!p a && q a) = q₂ a) :
    l.filter q = l.filter q₁ ++ l.filter q₂ :=
  calc l.filter q
      = (l.filter q).filter p ++ (l.filter q).filter (fun a => !p a) :=
        (filter_append_filter_not (h.filter q)).symm
    _ = l.filter q₁ ++ l.filter q₂ := by
        rw [List.filter_filter, List.filter_filter, List.filter_congr h₁, List.filter_congr h₂]

end

/-! ### Cells before and after a value -/

namespace Comparator

theorem lt_and_le (a b : Cell) : (lt.holds a b && le.holds a b) = lt.holds a b := by
  rw [holds_le]
  cases lt.holds a b <;> rfl

theorem not_lt_and_le (a b : Cell) : (!lt.holds a b && le.holds a b) = eq.holds a b := by
  by_cases h : a = b
  · simp [holds, h, Cell.order_self]
  · simp [holds, h]

theorem gt_and_ge (a b : Cell) : (gt.holds a b && ge.holds a b) = gt.holds a b := by
  rw [holds_ge]
  cases gt.holds a b <;> rfl

theorem not_gt_and_ge (a b : Cell) : (!gt.holds a b && ge.holds a b) = eq.holds a b := by
  by_cases h : a = b
  · simp [holds, h, Cell.order_self]
  · simp [holds, h]

end Comparator

namespace Cell

theorem order_neg_of_le {a b value : Cell} (hab : a.kind = b.kind) (hb : b.kind = value.kind)
    (hle : a.order b ≤ 0) (hlt : b.order value < 0) : a.order value < 0 := by
  have hswap := order_swap a value
  have hswap' := order_swap b value
  by_contra hge
  have hback : value.order b ≤ 0 :=
    order_trans (hb.symm.trans hab.symm) hab (by omega) hle
  omega

end Cell

namespace Algebra

theorem ne_null_of_readLiteral {k : Kind} {literal : Text} {value : Cell}
    (hvalue : readLiteral k literal = .ok value) : value ≠ .null .text := by
  rintro rfl
  cases k with
  | text => cases hvalue
  | numeric => exact absurd (kind_of_readLiteral hvalue) (by decide)

theorem eq_iff_tie {k : Kind} {literal : Text} {value a : Cell}
    (hvalue : readLiteral k literal = .ok value) (ha : a.kind = k) :
    a = value ↔ a.order value = 0 ∧ a ≠ .null .text := by
  constructor
  · rintro rfl
    exact ⟨Cell.order_self a, ne_null_of_readLiteral hvalue⟩
  · rintro ⟨htie, hnull⟩
    by_contra hne
    have hside := (side_readLiteral_eq_none_iff hvalue ha).mp (Cell.side_eq_none_iff.mpr ⟨hne, htie⟩)
    exact hnull hside.1

/-! ### The blocks of a sorted table -/

section
variable {t : Table} (h : t.RowsConform) {c : Nat} {value : Cell} (hkind : value.kind = t.kind c)
include h hkind

theorem pairwise_lt_sortBy : (t.sortBy c).rows.Pairwise fun r s =>
    Comparator.lt.holds (s.cell c) value = true → Comparator.lt.holds (r.cell c) value = true := by
  refine (pairwise_rows_sortBy h c).imp_of_mem fun {r s} hr hs hle hlt => ?_
  have hr := (rowsConform_sortBy h c).kind_eq hr c
  have hs := (rowsConform_sortBy h c).kind_eq hs c
  exact decide_eq_true (Cell.order_neg_of_le (hr.trans hs.symm) (hs.trans hkind.symm)
    (of_decide_eq_true hle) (of_decide_eq_true hlt))

theorem pairwise_not_gt_sortBy : (t.sortBy c).rows.Pairwise fun r s =>
    (!Comparator.gt.holds (s.cell c) value) = true →
      (!Comparator.gt.holds (r.cell c) value) = true := by
  refine (pairwise_rows_sortBy h c).imp_of_mem fun {r s} hr hs hle hgt => ?_
  have hr := (rowsConform_sortBy h c).kind_eq hr c
  have hs := (rowsConform_sortBy h c).kind_eq hs c
  simp only [Comparator.holds, Bool.not_eq_true', decide_eq_false_iff_not, Int.not_lt] at hgt ⊢
  exact Cell.order_trans (hr.trans hs.symm) (hs.trans hkind.symm) (of_decide_eq_true hle) hgt

theorem rows_sortBy_eq_append :
    (t.sortBy c).rows = (t.sortBy c).rows.filter (fun r => Comparator.lt.holds (r.cell c) value) ++
      (t.sortBy c).rows.filter (fun r => (r.cell c).order value = 0) ++
      (t.sortBy c).rows.filter (fun r => Comparator.gt.holds (r.cell c) value) := by
  have hnotAbove : (t.sortBy c).rows.filter (fun r => !Comparator.gt.holds (r.cell c) value) =
      (t.sortBy c).rows.filter (fun r => Comparator.lt.holds (r.cell c) value) ++
        (t.sortBy c).rows.filter (fun r => (r.cell c).order value = 0) := by
    refine filter_eq_append (pairwise_lt_sortBy h hkind) ?_ ?_ <;>
    · intro r _
      rw [Bool.eq_iff_iff]
      simp only [Comparator.holds, Bool.and_eq_true, Bool.not_eq_true', decide_eq_true_iff,
        decide_eq_false_iff_not]
      omega
  have hcut := filter_append_filter_not (pairwise_not_gt_sortBy h hkind)
  simp only [Bool.not_not] at hcut
  rw [← hnotAbove, hcut]

end

/-! ### What the comparators take -/

/-- The rows of a sorted table that a comparator takes. -/
def taken (t : Table) (c : Nat) (value : Cell) (k : Comparator) : Table :=
  selectRows (t.sortBy c) c k.holds value

/-- The rows of a sorted table that tie with a value. -/
def tying (t : Table) (c : Nat) (value : Cell) : List Row :=
  (t.sortBy c).rows.filter fun r => (r.cell c).order value = 0

section
variable {t : Table} (h : t.RowsConform) {c : Nat}
include h

theorem rows_taken (value : Cell) (k : Comparator) : (taken t c value k).rows =
    (t.sortBy c).rows.filter fun r => k.holds (r.cell c) value :=
  rows_selectRows (rowsConform_sortBy h c) c k.holds value

variable {literal : Text} {value : Cell} (hvalue : readLiteral (t.kind c) literal = .ok value)
include hvalue

theorem tying_eq : tying t c value =
    (t.sortBy c).rows.filter fun r => ((r.cell c).compare value).toOption = some 0 := by
  refine List.filter_congr fun r hr => ?_
  have hcomparable : (r.cell c).isComparable value = true :=
    isComparable_readLiteral hvalue ((rowsConform_sortBy h c).kind_eq hr c)
  rw [Cell.compare_eq, hcomparable, decide_eq_decide]
  exact Option.some_inj.symm

theorem rows_eq_taken_append : (t.sortBy c).rows =
    (taken t c value .lt).rows ++ tying t c value ++ (taken t c value .gt).rows := by
  rw [rows_taken h, rows_taken h]
  exact rows_sortBy_eq_append h (kind_of_readLiteral hvalue)

theorem rows_taken_eq : (taken t c value .eq).rows =
    (tying t c value).filter fun r => r.cell c ≠ .null .text := by
  rw [rows_taken h, tying, List.filter_filter]
  refine List.filter_congr fun r hr => ?_
  rw [← Bool.decide_and, Comparator.holds, decide_eq_decide, and_comm]
  exact eq_iff_tie hvalue ((rowsConform_sortBy h c).kind_eq hr c)

theorem rows_taken_le : (taken t c value .le).rows =
    (taken t c value .lt).rows ++ (taken t c value .eq).rows := by
  rw [rows_taken h, rows_taken h, rows_taken h]
  exact filter_eq_append (pairwise_lt_sortBy h (kind_of_readLiteral hvalue))
    (fun r _ => Comparator.lt_and_le (r.cell c) value)
    fun r _ => Comparator.not_lt_and_le (r.cell c) value

theorem rows_taken_ge : (taken t c value .ge).rows =
    (taken t c value .eq).rows ++ (taken t c value .gt).rows := by
  rw [rows_taken h, rows_taken h, rows_taken h]
  refine filter_eq_append (pairwise_not_gt_sortBy h (kind_of_readLiteral hvalue))
    (fun r _ => Comparator.not_gt_and_ge (r.cell c) value) fun r _ => ?_
  rw [Bool.not_not]
  exact Comparator.gt_and_ge (r.cell c) value

/-- A null text ties with a literal only if that writes the empty text. -/
theorem strip_eq_nil_of_tying {r : Row} (hr : r ∈ tying t c value) (hnull : r.cell c = .null .text) :
    literal.strip = [] := by
  obtain ⟨hr, htie⟩ := List.mem_filter.mp hr
  have hne : r.cell c ≠ value := fun heq => ne_null_of_readLiteral hvalue (heq.symm.trans hnull)
  have hside := Cell.side_eq_none_iff.mpr ⟨hne, of_decide_eq_true htie⟩
  have hkind := (rowsConform_sortBy h c).kind_eq hr c
  exact ((side_readLiteral_eq_none_iff hvalue hkind).mp hside).2

theorem taken_infix (hnone : ∀ r ∈ tying t c value, r.cell c ≠ .null .text) (k : Comparator) :
    (taken t c value k).rows <:+: (t.sortBy c).rows := by
  have hall : (taken t c value .eq).rows = tying t c value :=
    (rows_taken_eq h hvalue).trans
      (List.filter_eq_self.mpr fun r hr => decide_eq_true (hnone r hr))
  have hle := rows_taken_le h hvalue
  have hge := rows_taken_ge h hvalue
  rw [rows_eq_taken_append h hvalue, ← hall]
  cases k with
  | lt => exact ⟨[], (taken t c value .eq).rows ++ (taken t c value .gt).rows, by simp⟩
  | le => exact ⟨[], (taken t c value .gt).rows, by rw [hle, List.nil_append]⟩
  | eq => exact List.infix_append _ _ _
  | ge =>
    exact ⟨(taken t c value .lt).rows, [], by rw [hge, List.append_nil, List.append_assoc]⟩
  | gt =>
    exact ⟨(taken t c value .lt).rows ++ (taken t c value .eq).rows, [], List.append_nil _⟩

end

/-- A table sorted by a column is made up of the rows below a literal, those that tie with it and
those above it. Equality takes those that tie, less the null texts, and the comparators that admit
equality take these and one of the other blocks. So the rows that a comparator takes stand together,
unless the literal writes the empty text and there are null texts among those that tie. Only a column
that mixes may not be sorted. -/
theorem select_sorted {t : Table} (h : t.RowsConform) {c : Nat} (hc : c < t.width) {literal : Text}
    (hliteral : IsLiteralFor (t.kind c) literal) :
    ∃ value s, readLiteral (t.kind c) literal = .ok value ∧
      (orderBy t c = .ok s ∨ t.Mixes c ∧ orderBy t c = .error .integerTooLong) ∧
      ∃ result : Comparator → Table,
      (∀ symbol k, Comparator.read symbol = .ok k →
        select s c symbol literal = .ok (result k) ∧
        select s c symbol literal true = .ok (result k.legacy)) ∧
      ∃ tied, tied = s.rows.filter (fun r => ((r.cell c).compare value).toOption = some 0) ∧
        s.rows = (result .lt).rows ++ tied ++ (result .gt).rows ∧
        (result .eq).rows = tied.filter (fun r => r.cell c ≠ .null .text) ∧
        (result .le).rows = (result .lt).rows ++ (result .eq).rows ∧
        (result .ge).rows = (result .eq).rows ++ (result .gt).rows ∧
        (∀ r ∈ tied, r.cell c = .null .text → literal.strip = []) ∧
        ((∀ r ∈ tied, r.cell c ≠ .null .text) → ∀ k, (result k).rows <:+: s.rows) := by
  obtain ⟨value, hvalue⟩ := exists_readLiteral hliteral
  refine ⟨value, t.sortBy c, hvalue, Table.orderBy_cases h hc, taken t c value,
    fun symbol k hsymbol => ⟨?_, ?_⟩, tying t c value, tying_eq h hvalue,
    rows_eq_taken_append h hvalue, rows_taken_eq h hvalue, rows_taken_le h hvalue,
    rows_taken_ge h hvalue,
    fun r hr => strip_eq_nil_of_tying h hvalue hr, taken_infix h hvalue⟩
  · exact select_of_column (t := t.sortBy c) (rowsConform_sortBy h c) hsymbol hc hvalue false
  · exact select_of_column (t := t.sortBy c) (rowsConform_sortBy h c) hsymbol hc hvalue true

/-! ### Blocks and ties -/

theorem orderBy_of_arranged {t : Table} (h : t.RowsConform) {c : Nat} (hc : c < t.width)
    (hw : t.isWritable = true) {rows : List Row} (ha : Arranged [c] t.rows rows) :
    orderBy t c = .ok { t with rows } := by
  have hrows : (t.sortBy c).rows = rows := ((Arranged.refl t.rows).sortBy h c).unique ha
  rw [Table.orderBy_of_not_mixes h hc (Table.not_mixes_of_isWritable hw c), ← hrows]
  rfl

namespace Sample

def labels : Table :=
  { schema := [.text],
    rows := [[.text (some "b")], [.text (some [])], [.text none], [.text (some [])]] }

end Sample

/-- The null number is below one, and so it stands before the ones. The null label stands between
the empty ones, and equality takes these alone. -/
theorem select_sorted_sample :
    Sample.fruits.RowsConform ∧ 0 < Sample.fruits.width ∧
      IsLiteralFor (Sample.fruits.kind 0) "1" ∧
      Sample.labels.RowsConform ∧ 0 < Sample.labels.width ∧
      IsLiteralFor (Sample.labels.kind 0) " " ∧
      (∃ s u, orderBy Sample.fruits 0 = .ok s ∧ select s 0 "<=" "1" = .ok u ∧
        u.rows.map (·.cell 0) = [.numeric none, .numeric (some 1), .numeric (some 1)] ∧
        u.rows <:+: s.rows) ∧
      ∃ s u, orderBy Sample.labels 0 = .ok s ∧ select s 0 "=" " " = .ok u ∧
        s.rows = [[.text (some [])], [.text none], [.text (some [])], [.text (some "b")]] ∧
        u.rows = [[.text (some [])], [.text (some [])]] ∧ ¬u.rows <:+: s.rows := by
  have hf : Sample.fruits.RowsConform := by decide
  have hl : Sample.labels.RowsConform := by decide
  have hone : IsLiteralFor (Sample.fruits.kind 0) "1" :=
    ⟨[], "1", by decide, by decide, by decide, by decide, by decide⟩
  have hblank : IsLiteralFor (Sample.labels.kind 0) " " := trivial
  have hfruits := orderBy_of_arranged hf (c := 0) (by decide) (by decide)
    ⟨[([.numeric none, .text (some "pear")], 1), ([.numeric (some 1), .text none], 3),
      ([.numeric (some 1), .text (some "fig")], 4), ([.numeric (some 3), .text (some "fig")], 0),
      ([.numeric (some 3), .text (some [])], 2)], rfl, by decide, by decide⟩
  have hlabels := orderBy_of_arranged hl (c := 0) (by decide) (by decide)
    ⟨[([.text (some [])], 1), ([.text none], 2), ([.text (some [])], 3), ([.text (some "b")], 0)],
      rfl, by decide, by decide⟩
  obtain ⟨m, s, hm, hs, fruits, hselect, tied, rfl, -, -, -, -, -, hrun⟩ :=
    select_sorted hf (by decide) hone
  obtain ⟨n, u, hn, hu, labels, hempties, tied', rfl, -, hequal, -⟩ :=
    select_sorted hl (by decide) hblank
  cases hm
  cases hn
  have hs := hs.resolve_right fun hm => Sample.not_mixes_fruits 0 hm.1
  have hu := hu.resolve_right fun hm => Table.not_mixes_of_isWritable (by decide) 0 hm.1
  cases hfruits.symm.trans hs
  cases hlabels.symm.trans hu
  have hle := (hselect "<=" .le rfl).1
  have heq := (hempties "=" .eq rfl).1
  have hempty : (labels .eq).rows = [[.text (some [])], [.text (some [])]] :=
    hequal.trans (by decide)
  have hnumbers : (fruits .le).rows.map (·.cell 0) =
      [.numeric none, .numeric (some 1), .numeric (some 1)] :=
    map_eq_of_ok hle (f := fun u => u.rows.map (·.cell 0)) (by decide)
  refine ⟨hf, by decide, hone, hl, by decide, hblank, ⟨_, _, hs, hle, hnumbers,
    hrun (by decide) .le⟩, _, _, hu, heq, rfl, hempty, ?_⟩
  rw [hempty]
  decide

/-- A null and the least number of too many digits have no order to select from. -/
theorem not_select_sorted :
    ¬∀ (t : Table) (c : Nat) (literal : Text), t.WellFormed → c < t.width →
      IsLiteralFor (t.kind c) literal → ∃ s below above, orderBy t c = .ok s ∧
        select s c "<" literal = .ok below ∧ select s c ">" literal = .ok above ∧
        below.rows <+: s.rows ∧ above.rows <:+ s.rows := by
  intro h
  have hliteral : IsLiteralFor (Table.Sample.mixed.kind 0) "1" :=
    ⟨[], "1", by decide, by decide, by decide, by decide, by decide⟩
  obtain ⟨s, _, _, hs, -⟩ :=
    h Table.Sample.mixed 0 "1" Table.Sample.wellFormed_mixed (by decide) hliteral
  rw [show orderBy Table.Sample.mixed (0 : Nat) = _ from Table.Sample.orderBy_mixed] at hs
  cases hs

end Algebra

end TableAlgebra
