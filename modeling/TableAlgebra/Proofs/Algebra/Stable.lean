import TableAlgebra.Proofs.Algebra.Ordered
import TableAlgebra.Proofs.Algebra.Pushed

/-!
# Selections and sorting

Rows may be selected before a table is sorted or after. Sorting is stable, so the rows that are left
stand to one another as they did in the whole table, also those that tie.

* `filter_mergeSort`   what is left of a sorted list is what was left, sorted;
* `keep_sortBy`        rows of a sorted table;
* `select_orderBy`     a selection by one column and an order by another.
-/

namespace TableAlgebra.Algebra

open Table (rowLE RowsConform)

/-! ### Sorted lists with fewer elements -/

section
variable {α : Type} {le : α → α → Bool} {l : List α}
  (trans : ∀ a ∈ l, ∀ b ∈ l, ∀ c ∈ l, le a b = true → le b c = true → le a c = true)
  (total : ∀ a ∈ l, ∀ b ∈ l, (le a b || le b a) = true)
include trans total

/-- Elements with their places are sorted in the order of their places where they tie. -/
theorem pairwise_mergeSort_placed {placed : List (α × Nat)} (hmem : ∀ x ∈ placed, x.1 ∈ l)
    (hplaces : placed.Pairwise fun x y => x.2 < y.2) :
    (placed.mergeSort fun x y => le x.1 y.1).Pairwise fun x y =>
      le x.1 y.1 = true ∧ (le y.1 x.1 = true → x.2 < y.2) :=
  pairwise_mergeSort_of_pairwise _
    (fun x hx y hy z hz => trans _ (hmem x hx) _ (hmem y hy) _ (hmem z hz))
    (fun x hx y hy => total _ (hmem x hx) _ (hmem y hy)) hplaces

theorem filter_mergeSort (p : α → Bool) :
    (l.mergeSort le).filter p = (l.filter p).mergeSort le := by
  -- the places of the whole list decide the ties on both sides
  let lePlaced (x y : α × Nat) : Bool := le x.1 y.1
  let kept := l.zipIdx.filter (p ∘ Prod.fst)
  have hsort (placed : List (α × Nat)) :
      (placed.mergeSort lePlaced).map Prod.fst = (placed.map Prod.fst).mergeSort le :=
    List.map_mergeSort fun _ _ _ _ => rfl
  have hwhole : ∀ x ∈ l.zipIdx, x.1 ∈ l := fun x hx => by
    rw [← List.zipIdx_map_fst 0 l]
    exact List.mem_map_of_mem hx
  have hkept : ∀ x ∈ kept, x.1 ∈ l := fun x hx => hwhole x (List.mem_filter.mp hx).1
  have hperm : ((l.zipIdx.mergeSort lePlaced).filter (p ∘ Prod.fst)).Perm
      (kept.mergeSort lePlaced) :=
    ((List.mergeSort_perm _ _).filter _).trans (List.mergeSort_perm _ _).symm
  have heq : (l.zipIdx.mergeSort lePlaced).filter (p ∘ Prod.fst) = kept.mergeSort lePlaced := by
    refine List.Perm.eq_of_pairwise (fun x y _ _ hxy hyx => ?_)
      ((pairwise_mergeSort_placed trans total hwhole (pairwise_zipIdx l)).filter _)
      (pairwise_mergeSort_placed trans total hkept ((pairwise_zipIdx l).filter _)) hperm
    have hlt := hxy.2 hyx.1
    have hgt := hyx.2 hxy.1
    omega
  calc (l.mergeSort le).filter p
      = ((l.zipIdx.mergeSort lePlaced).map Prod.fst).filter p := by
        rw [hsort, List.zipIdx_map_fst]
    _ = ((l.zipIdx.mergeSort lePlaced).filter (p ∘ Prod.fst)).map Prod.fst := List.filter_map
    _ = (kept.map Prod.fst).mergeSort le := by rw [heq, hsort]
    _ = (l.filter p).mergeSort le := by
        rw [← List.filter_map, List.zipIdx_map_fst]

end

/-! ### Sorted tables with fewer rows -/

theorem keep_sortBy {t : Table} (h : t.RowsConform) (a : Nat) (p : Row → Bool) :
    keep (t.sortBy a) p = (keep t p).sortBy a := by
  have trans : ∀ r ∈ t.rows, ∀ s ∈ t.rows, ∀ u ∈ t.rows,
      rowLE a r s = true → rowLE a s u = true → rowLE a r u = true :=
    fun r hr s hs u hu => rowLE_trans h a hr hs hu
  have hrows : (keep (t.sortBy a) p).rows = ((keep t p).sortBy a).rows := by
    rw [rows_keep (rowsConform_sortBy h a), Table.sortBy, Table.sortBy, rows_keep h]
    exact filter_mergeSort trans (fun r _ s _ => rowLE_total a r s) p
  exact congrArg (Table.mk t.schema (Table.fitHeader t.schema t.header)) hrows

/-- Selecting by one column and sorting by another give one table, in whichever order they come: the
selected rows, stably sorted. Only a column that mixes may not be sorted, before the selection or
after it. -/
theorem select_orderBy {t : Table} (ht : t.RowsConform) {a c : Nat} (ha : a < t.width)
    (hc : c < t.width) {symbol literal : Text} {k : Comparator}
    (hsymbol : Comparator.read symbol = .ok k) (hliteral : IsLiteralFor (t.kind c) literal)
    (legacy : Bool) :
    ∃ value u, readLiteral (t.kind c) literal = .ok value ∧
      ((orderBy t a >>= fun s => select s c symbol literal legacy) = .ok u ∨ t.Mixes a ∧
        (orderBy t a >>= fun s => select s c symbol literal legacy) = .error .integerTooLong) ∧
      ((select t c symbol literal legacy >>= fun s => orderBy s a) = .ok u ∨ t.Mixes a ∧
        (select t c symbol literal legacy >>= fun s => orderBy s a) = .error .integerTooLong) ∧
      u.schema = t.schema ∧
      ∀ rows, StablySorted a (t.rows.filter fun r => k.test legacy (r.cell c) value) rows ↔
        rows = u.rows := by
  obtain ⟨value, hvalue⟩ := exists_readLiteral hliteral
  let selected := selectRows t c (k.test legacy) value
  have hconform : selected.RowsConform := rowsConform_keep t _
  have hrows : selected.rows = t.rows.filter fun r => k.test legacy (r.cell c) value :=
    rows_selectRows ht c _ value
  have hafter : select (t.sortBy a) c symbol literal legacy = .ok (selected.sortBy a) := by
    rw [select_of_column (t := t.sortBy a) (rowsConform_sortBy ht a) hsymbol hc hvalue]
    exact congrArg Except.ok (keep_sortBy ht a _)
  refine ⟨value, selected.sortBy a, hvalue, ?_, ?_, rfl, fun rows => ?_⟩
  · rcases Table.orderBy_cases ht ha with hok | ⟨hm, herror⟩
    · rw [hok]
      exact Or.inl hafter
    · rw [herror]
      exact Or.inr ⟨hm, rfl⟩
  · rw [select_of_column ht hsymbol hc hvalue]
    refine (Table.orderBy_cases (t := selected) hconform ha).imp id (And.imp_left fun hm => ?_)
    exact hm.of_subset (hrows ▸ (List.filter_sublist).subset)
  · have hsorted := (Arranged.refl selected.rows).sortBy hconform a
    rw [← hrows, stablySorted_iff]
    exact ⟨fun h => h.unique hsorted, fun h => h ▸ hsorted⟩

/-- The null number is below one and is left out. Of the other rows, the figs stay in the order they
had, and so do the empty name and the null. -/
theorem select_orderBy_sample :
    Sample.fruits.RowsConform ∧ 1 < Sample.fruits.width ∧ 0 < Sample.fruits.width ∧
      Comparator.read ">=" = .ok .ge ∧ IsLiteralFor (Sample.fruits.kind 0) "1" ∧
      ∃ u, (orderBy Sample.fruits 1 >>= fun s => select s 0 ">=" "1") = .ok u ∧
        (select Sample.fruits 0 ">=" "1" >>= fun s => orderBy s 1) = .ok u ∧
        u.rows = [[.numeric (some 3), .text (some [])], [.numeric (some 1), .text none],
          [.numeric (some 3), .text (some "fig")], [.numeric (some 1), .text (some "fig")]] := by
  have h : Sample.fruits.RowsConform := by decide
  have hone : 1 < Sample.fruits.width := by decide
  have hzero : 0 < Sample.fruits.width := by decide
  have hsymbol : Comparator.read ">=" = .ok .ge := rfl
  have hliteral : IsLiteralFor (Sample.fruits.kind 0) "1" :=
    ⟨[], "1", by decide, by decide, by decide, by decide, by decide⟩
  obtain ⟨value, u, hvalue, hafter, hbefore, -, hrows⟩ :=
    select_orderBy h hone hzero hsymbol hliteral false
  cases hvalue
  have hnone := Sample.not_mixes_fruits 1
  refine ⟨h, hone, hzero, hsymbol, hliteral, u, hafter.resolve_right fun hm => hnone hm.1,
    hbefore.resolve_right fun hm => hnone hm.1, ((hrows _).mp ?_).symm⟩
  exact ⟨[([.numeric (some 3), .text (some [])], 1), ([.numeric (some 1), .text none], 2),
    ([.numeric (some 3), .text (some "fig")], 0), ([.numeric (some 1), .text (some "fig")], 3)],
    rfl, by decide, by decide, by decide⟩

/-- A null and the least number of too many digits are selected by a comparator, but not sorted. -/
theorem not_select_orderBy :
    ¬∀ (t : Table) (a c : Nat) (symbol literal : Text) (k : Comparator) (legacy : Bool),
      t.WellFormed → a < t.width → c < t.width → Comparator.read symbol = .ok k →
      IsLiteralFor (t.kind c) literal →
      ∃ u, (orderBy t a >>= fun s => select s c symbol literal legacy) = .ok u ∧
        (select t c symbol literal legacy >>= fun s => orderBy s a) = .ok u := by
  intro h
  have hliteral : IsLiteralFor (Table.Sample.mixed.kind 0) "1" :=
    ⟨[], "1", by decide, by decide, by decide, by decide, by decide⟩
  obtain ⟨u, hu, -⟩ := h Table.Sample.mixed 0 0 "<" "1" .lt false Table.Sample.wellFormed_mixed
    (by decide) (by decide) rfl hliteral
  rw [show orderBy Table.Sample.mixed (0 : Nat) = _ from Table.Sample.orderBy_mixed] at hu
  cases hu

end TableAlgebra.Algebra
