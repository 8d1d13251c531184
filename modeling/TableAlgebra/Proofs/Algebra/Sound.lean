import TableAlgebra.Algebra.Join
import TableAlgebra.Algebra.Project
import TableAlgebra.Algebra.Select
import TableAlgebra.Proofs.Table.Sound

/-!
# Operators keep tables sound

A relational operator on sound tables gives a sound table, or one without rows: the operators that
answer a row-less operand with the table without columns are `project`, `product`, `join` and
`naturalJoin`. A session never stores a result without rows.
-/

namespace TableAlgebra.Algebra

open Table (Sound)

/-! ### One table -/

theorem sound_keep {t : Table} (h : t.Sound) (p : Row → Bool) : (keep t p).Sound :=
  Table.sound_ofRows h.columns (fun r hr => h.cells r (List.mem_filter.mp hr).1) h.names

theorem sound_select {t u : Table} (h : t.Sound) {column : Int} {symbol literal : Text}
    {legacy : Bool} (hu : select t column symbol literal legacy = .ok u) : u.Sound := by
  rw [select_eq h.rows] at hu
  obtain ⟨_, _, hu⟩ := bind_eq_ok.mp hu
  obtain ⟨_, _, hu⟩ := bind_eq_ok.mp hu
  obtain ⟨_, _, hu⟩ := bind_eq_ok.mp hu
  cases hu
  exact sound_keep h _

theorem sound_orderBy {t u : Table} (h : t.Sound) {column : Int} (hu : orderBy t column = .ok u) :
    u.Sound := by
  obtain ⟨-, -, rfl⟩ := map_eq_ok.mp hu
  exact h.sort column

theorem isStorable_pick {r : Row} (h : r.IsStorable) (cs : List Nat) :
    Row.IsStorable (pick cs r) := by
  intro c hc
  obtain ⟨i, _, rfl⟩ := List.mem_map.mp hc
  exact h.cell i

theorem sound_pickColumns {t : Table} (h : t.Sound) {cs : List Nat} (hcs : cs ≠ []) :
    (pickColumns t cs).Sound := by
  refine Table.sound_ofRows (fun e => hcs (List.map_eq_nil_iff.mp e)) ?_ ?_
  · intro r hr
    obtain ⟨s, hs, rfl⟩ := List.mem_map.mp hr
    exact isStorable_pick (h.cells s hs) cs
  · intro name hn
    split at hn
    · obtain ⟨c, _, rfl⟩ := List.mem_map.mp hn
      exact h.isField_label c
    · cases hn

theorem sound_project {t u : Table} (h : t.Sound) {columns : List Int}
    (hu : project t columns = .ok u) : u.rows = [] ∨ u.Sound := by
  unfold project at hu
  split at hu
  · cases hu
    exact Or.inl rfl
  · next hne =>
    obtain ⟨cs, hcs, rfl⟩ := map_eq_ok.mp hu
    refine Or.inr (sound_pickColumns h ?_)
    rintro rfl
    have hl := length_of_mapM hcs
    rw [List.length_nil] at hl
    exact hne (List.isEmpty_iff_length_eq_zero.mpr hl.symm)

/-! ### Two tables -/

section
variable {l r : Table} (hl : l.Sound) (hr : r.Sound)
include hl hr

theorem sound_combined {rows : List Row} (h : ∀ x ∈ rows, Row.IsStorable x) :
    (combined l r rows).Sound := by
  refine Table.sound_ofRows ?_ h ?_
  · exact List.append_ne_nil_of_left_ne_nil hl.columns _
  · intro name hn
    rw [combinedHeader] at hn
    split at hn
    · exact (List.mem_append.mp hn).elim (hl.names name) (hr.names name)
    · cases hn

theorem sound_product : (product l r).rows = [] ∨ (product l r).Sound := by
  unfold product
  split
  · exact Or.inl rfl
  · split
    · exact Or.inr hr
    · split
      · exact Or.inr hl
      · refine Or.inr (sound_combined hl hr fun x hx => ?_)
        obtain ⟨a, ha, hx⟩ := List.mem_flatMap.mp hx
        obtain ⟨b, hb, rfl⟩ := List.mem_map.mp hx
        exact Row.isStorable_append (hl.cells a ha) (hr.cells b hb)

theorem isStorable_of_mem_joinedRows {pairs : List (Nat × Nat)} {x : Row}
    (hx : x ∈ joinedRows l r pairs) : x.IsStorable := by
  obtain ⟨a, ha, hx⟩ := List.mem_flatMap.mp hx
  obtain ⟨b, hb, rfl⟩ := List.mem_map.mp hx
  exact Row.isStorable_append (hl.cells a ha) (hr.cells b (List.mem_filter.mp hb).1)

theorem sound_joinOn (pairs : List (Nat × Nat)) :
    (joinOn l r pairs).rows = [] ∨ (joinOn l r pairs).Sound := by
  unfold joinOn
  split
  · exact Or.inl rfl
  · exact Or.inr (sound_combined hl hr fun x hx => isStorable_of_mem_joinedRows hl hr hx)

theorem sound_outerJoinOn (pairs : List (Nat × Nat)) : (outerJoinOn l r pairs).Sound := by
  refine sound_combined hl hr fun x hx => ?_
  rcases List.mem_append.mp hx with hx | hx
  · rcases List.mem_append.mp hx with hx | hx
    · exact isStorable_of_mem_joinedRows hl hr hx
    · obtain ⟨a, ha, rfl⟩ := List.mem_map.mp hx
      exact Row.isStorable_append (hl.cells a (List.mem_filter.mp ha).1) (Row.isStorable_nulls _)
  · obtain ⟨b, hb, rfl⟩ := List.mem_map.mp hx
    exact Row.isStorable_append (Row.isStorable_nulls _) (hr.cells b (List.mem_filter.mp hb).1)

theorem sound_join {pairs : List (Int × Int)} {u : Table} (hu : join l r pairs = .ok u) :
    u.rows = [] ∨ u.Sound := by
  obtain ⟨ps, _, rfl⟩ := map_eq_ok.mp hu
  exact sound_joinOn hl hr _

theorem sound_outerJoin {pairs : List (Int × Int)} {u : Table} (hu : outerJoin l r pairs = .ok u) :
    u.Sound := by
  obtain ⟨ps, _, rfl⟩ := map_eq_ok.mp hu
  exact sound_outerJoinOn hl hr _

theorem sound_naturalJoin {outer : Bool} {u : Table} (hu : naturalJoin l r outer = .ok u) :
    u.rows = [] ∨ u.Sound := by
  unfold naturalJoin at hu
  dsimp only at hu
  split at hu
  · cases hu
    exact Or.inl rfl
  · split at hu
    · exact Or.inr (sound_outerJoin hl hr hu)
    · exact sound_join hl hr hu

end

end TableAlgebra.Algebra
