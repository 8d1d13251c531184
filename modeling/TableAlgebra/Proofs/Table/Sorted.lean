import TableAlgebra.Algebra.Select
import TableAlgebra.Proofs.Cell.Order

/-!
# Tables that can be sorted

Cells of one kind are in a total order, but not each two of them can be compared: an integer of too
many digits and a null number cannot. A column that has both may not be sorted; the rows are then
left as far as they have been arranged. Any other column is.

* `Mixes`               the columns that have both;
* `sort_cases`          how a sort ends;
* `orderBy_cases`       and what the operator answers then.
-/

namespace TableAlgebra.Table

/-- The column has a null number and an integer of too many digits. -/
def Mixes (t : Table) (c : Nat) : Prop :=
  (∃ r ∈ t.rows, r.cell c = .null .numeric) ∧ ∃ r ∈ t.rows, (r.cell c).IsLong

section
variable {t : Table} (h : t.RowsConform) {c : Nat}
include h

theorem kind_cell_eq {r s : Row} (hr : r ∈ t.rows) (hs : s ∈ t.rows) :
    (r.cell c).kind = (s.cell c).kind := by
  rw [h.kind_eq hr, h.kind_eq hs]

theorem mixes_of_clashes {r s : Row} (hr : r ∈ t.rows) (hs : s ∈ t.rows)
    (hclash : (r.cell c).Clashes (s.cell c)) : t.Mixes c := by
  have hmixes : ∀ {r s : Row}, r ∈ t.rows → s ∈ t.rows → (r.cell c).IsLong →
      ¬(s.cell c).IsInteger → t.Mixes c := by
    intro r s hr hs hlong hnone
    refine ⟨⟨s, hs, ?_⟩, r, hr, hlong⟩
    obtain ⟨n, hn, -⟩ := hlong
    have hk := kind_cell_eq h (c := c) hr hs
    rw [hn] at hk
    rcases hcell : s.cell c with v | v
    · cases v with
      | none => rfl
      | some m => exact absurd ⟨m, hcell⟩ hnone
    · rw [hcell] at hk
      cases hk
  rcases hclash with ⟨hlong, hnone⟩ | ⟨hlong, hnone⟩
  · exact hmixes hr hs hlong hnone
  · exact hmixes hs hr hlong hnone

theorem comparable_of_not_mixes (hm : ¬t.Mixes c) : Runs.Comparable (rowLT c) t.rows := by
  intro r hr s hs
  have hclash : ¬(r.cell c).Clashes (s.cell c) := fun hc => hm (mixes_of_clashes h hr hs hc)
  rw [rowLT, Cell.compare_of_not_clashes hclash]
  rfl

/-- A sort puts the rows in order, or comes upon two cells of a column that mixes. -/
theorem sort_cases (hc : c < t.width) :
    t.sort c = (.ok (), t.sortBy c) ∨
      t.Mixes c ∧ ∃ rows, rows.Perm t.rows ∧
        t.sort c = (.error .integerTooLong, { t with rows }) := by
  have hkeeps : Runs.Keeps (rowLT c) id t.rows (Runs.sort (rowLT c) t.rows) := Runs.keeps_sort t.rows
  rw [sort, position_natCast hc]
  dsimp only
  rw [sortRows, isUniform_of_rowsConform h]
  cases hs : Runs.sort (rowLT c) t.rows with
  | ok rows => exact Or.inl rfl
  | error rows =>
    rw [hs] at hkeeps
    refine Or.inr ⟨Classical.byContradiction fun hm => ?_, rows, hkeeps.perm, rfl⟩
    obtain ⟨_, hok⟩ := hkeeps.ends (comparable_of_not_mixes h hm)
    cases hok

theorem orderBy_cases (hc : c < t.width) :
    Algebra.orderBy t c = .ok (t.sortBy c) ∨
      t.Mixes c ∧ Algebra.orderBy t c = .error .integerTooLong := by
  rw [Algebra.orderBy, sortedBy]
  rcases sort_cases h hc with hsort | ⟨hm, rows, -, hsort⟩
  · rw [hsort]
    exact Or.inl rfl
  · rw [hsort]
    exact Or.inr ⟨hm, rfl⟩

/-- Whether the operator answers is decided by the runs of the rows. -/
theorem orderBy_eq (hc : c < t.width) :
    Algebra.orderBy t c =
      okIf (Runs.sort (rowLT c) t.rows).isOk (t.sortBy c) .integerTooLong := by
  rw [Algebra.orderBy, sortedBy, sort, position_natCast hc]
  dsimp only
  rw [sortRows, isUniform_of_rowsConform h]
  cases Runs.sort (rowLT c) t.rows <;> rfl

theorem orderBy_of_not_mixes (hc : c < t.width) (hm : ¬t.Mixes c) :
    Algebra.orderBy t c = .ok (t.sortBy c) :=
  (orderBy_cases h hc).resolve_right fun hmixes => hm hmixes.1

theorem eq_sortBy_of_orderBy (hc : c < t.width) {u : Table}
    (hu : Algebra.orderBy t c = .ok u) : u = t.sortBy c := by
  rcases orderBy_cases h hc with hok | ⟨-, herror⟩
  · exact Except.ok.inj (hu.symm.trans hok)
  · rw [hu] at herror
    cases herror

end

theorem orderBy_of_clashes {t : Table} {c : Nat} (hc : c < t.width) {r s : Row} {rows : List Row}
    (hrows : t.rows = r :: s :: rows) (hclash : (s.cell c).Clashes (r.cell c)) :
    Algebra.orderBy t c = .error .integerTooLong := by
  have hlt : rowLT c s r = none := by
    rw [rowLT, Cell.compare_of_clashes hclash]
    rfl
  rw [Algebra.orderBy, sortedBy, sort, position_natCast hc]
  dsimp only
  rw [sortRows, hrows, Runs.sort_of_none hlt]
  rfl

/-- The order of the rows and rows that are left out do not make a column mix. -/
theorem Mixes.of_subset {t u : Table} {c : Nat} (h : t.Mixes c) (hs : t.rows ⊆ u.rows) :
    u.Mixes c := by
  obtain ⟨⟨r, hr, hnull⟩, s, hs', hlong⟩ := h
  exact ⟨⟨r, hs hr, hnull⟩, s, hs hs', hlong⟩

theorem not_mixes_of_isWritable {t : Table} (h : t.isWritable = true) (c : Nat) : ¬t.Mixes c := by
  rintro ⟨-, r, hr, hlong⟩
  have hcells : ∀ cell ∈ r, cell.isWritable = true :=
    List.all_eq_true.mp (List.all_eq_true.mp h r hr)
  have hcell : (r.cell c).isWritable = true :=
    forall_getD (p := fun cell : Cell => cell.isWritable = true) rfl hcells c
  rw [Cell.isWritable_eq_false_iff.mpr hlong] at hcell
  cases hcell

theorem mixes_sortBy {t : Table} {a c : Nat} : (t.sortBy a).Mixes c ↔ t.Mixes c :=
  ⟨fun h => h.of_subset (perm_rows_sortBy t a).subset,
    fun h => h.of_subset (perm_rows_sortBy t a).symm.subset⟩

/-! ### A column that mixes -/

namespace Sample

/-- A null and the least number of too many digits. -/
def mixed : Table :=
  { schema := [.numeric], rows := [[.numeric none],
      [.numeric (some (Text.Numeral.bound Text.Numeral.maxDigits))]] }

theorem wellFormed_mixed : mixed.WellFormed :=
  ⟨List.forall_mem_cons.mpr ⟨rfl, List.forall_mem_singleton.mpr rfl⟩, .inl rfl⟩

theorem orderBy_mixed : Algebra.orderBy mixed 0 = .error .integerTooLong := by
  have hlong := Text.Numeral.isShort_eq_false_iff.mp Text.Numeral.isShort_bound
  exact orderBy_of_clashes (c := 0) (by decide) rfl
    (.inl ⟨⟨_, rfl, hlong⟩, fun ⟨_, h⟩ => nomatch h⟩)

end Sample

end TableAlgebra.Table
