import TableAlgebra.Proofs.Algebra.Stable
import TableAlgebra.Proofs.Runs.Mapped

/-!
# Projections as renumberings

A projection lists columns of a table, and whatever is done to the listed columns can be done to the
table itself under the numbers that they have there: a projection of a projection is one projection,
and rows may be selected or sorted before the columns are listed or after.

* `cell_pick`, `kind_pickColumns`, `header_pickColumns`   a listed column under its new number;
* `pickColumns_pickColumns`   listed columns, listed again;
* `keep_pickColumns`          selected rows of listed columns;
* `sortBy_pickColumns`        sorted rows of listed columns;
* `isOk_sort_pickColumns`     whether they can be sorted;
* `pickColumns_range`         all columns in order;
* `project_pickColumns`, `select_pickColumns`, `orderBy_pickColumns`   operators after a projection;
* `project_renumbers`         projections before and after the other operators.
-/

namespace TableAlgebra.Algebra

open Table (rowLE rowLT RowsConform WellFormed)

/-! ### Listed columns under their new numbers -/

theorem getD_map_of_lt {α β : Type} {f : α → β} {l : List α} {i : Nat} (h : i < l.length) (a : α)
    (b : β) : (l.map f).getD i b = f (l.getD i a) := by
  simp [List.getD_eq_getElem?_getD, h]

/-- The columns that stand at the given positions of a list of columns. -/
def renumbered (cs js : List Nat) : List Nat := js.map fun j => cs.getD j 0

theorem map_renumbered {β : Type} (f : Nat → β) (b : β) {cs js : List Nat}
    (hjs : ∀ j ∈ js, j < cs.length) :
    (renumbered cs js).map f = js.map fun j => (cs.map f).getD j b := by
  rw [renumbered, List.map_map]
  exact List.map_congr_left fun j hj => (getD_map_of_lt (hjs j hj) 0 b).symm

theorem cell_pick {cs : List Nat} {k : Nat} (hk : k < cs.length) (r : Row) :
    Row.cell (pick cs r) k = r.cell (cs.getD k 0) := getD_map_of_lt hk 0 _

theorem pick_pick {cs js : List Nat} (hjs : ∀ j ∈ js, j < cs.length) (r : Row) :
    pick js (pick cs r) = pick (renumbered cs js) r := (map_renumbered r.cell _ hjs).symm

section
variable (t : Table)

theorem width_pickColumns (cs : List Nat) : (pickColumns t cs).width = cs.length :=
  List.length_map ..

theorem kind_pickColumns {cs : List Nat} {k : Nat} (hk : k < cs.length) :
    (pickColumns t cs).kind k = t.kind (cs.getD k 0) := getD_map_of_lt hk 0 _

theorem header_pickColumns (cs : List Nat) :
    (pickColumns t cs).header = if t.hasHeader then cs.map t.label else [] := by
  show Table.fitHeader (cs.map t.kind) _ = _
  split
  · exact Table.fitHeader_of_length_eq (by rw [List.length_map, List.length_map])
  · exact ite_self []

theorem hasHeader_pickColumns {cs : List Nat} (hne : cs ≠ []) :
    (pickColumns t cs).hasHeader = t.hasHeader := by
  rw [Table.hasHeader, header_pickColumns]
  split
  · next h => simp [h, hne]
  · next h => simp [Bool.eq_false_iff.mpr h]

end

theorem rows_pickColumns {t : Table} (h : t.RowsConform) (cs : List Nat) :
    (pickColumns t cs).rows = t.rows.map (pick cs) := by
  refine List.filter_eq_self.mpr fun r hr => ?_
  obtain ⟨s, hs, rfl⟩ := List.mem_map.mp hr
  exact conforms_pick (h s hs) cs

/-! ### Listed columns under the other operators -/

theorem pickColumns_pickColumns {t : Table} (h : t.RowsConform) {cs js : List Nat} (hne : cs ≠ [])
    (hjs : ∀ j ∈ js, j < cs.length) :
    pickColumns (pickColumns t cs) js = pickColumns t (renumbered cs js) := by
  have hkinds : js.map (pickColumns t cs).kind = (renumbered cs js).map t.kind :=
    (map_renumbered t.kind _ hjs).symm
  have hlabels : t.hasHeader = true →
      js.map (pickColumns t cs).label = (renumbered cs js).map t.label := by
    intro hheader
    have hlabel : (pickColumns t cs).label = fun j => (cs.map t.label).getD j [] := by
      funext j
      rw [Table.label, header_pickColumns, if_pos hheader]
    rw [hlabel, map_renumbered t.label [] hjs]
  have hrows : (pickColumns t cs).rows.map (pick js) = t.rows.map (pick (renumbered cs js)) := by
    rw [rows_pickColumns h, List.map_map]
    exact List.map_congr_left fun r _ => pick_pick hjs r
  rw [pickColumns, pickColumns.eq_def t (renumbered cs js), hkinds, hrows,
    hasHeader_pickColumns t hne]
  split
  · next hheader => rw [hlabels hheader]
  · rfl

theorem keep_pickColumns {t : Table} (h : t.WellFormed) (cs : List Nat) {p q : Row → Bool}
    (hpq : ∀ r ∈ t.rows, q (pick cs r) = p r) :
    keep (pickColumns t cs) q = pickColumns (keep t p) cs := by
  have hheader : (keep t p).hasHeader = t.hasHeader := by
    rw [Table.hasHeader, header_keep h.header]
    rfl
  have hlabel : (keep t p).label = t.label := by
    funext c
    rw [Table.label, header_keep h.header]
    rfl
  have hrows : (t.rows.map (pick cs)).filter q = (keep t p).rows.map (pick cs) := by
    rw [rows_keep h.rows, List.filter_map]
    exact congrArg _ (List.filter_congr hpq)
  rw [pickColumns, keep_ofRows, hrows, pickColumns, hheader, hlabel]
  rfl

theorem rowLE_pick {cs : List Nat} {k : Nat} (hk : k < cs.length) (r s : Row) :
    rowLE k (pick cs r) (pick cs s) = rowLE (cs.getD k 0) r s := by
  rw [rowLE, rowLE, cell_pick hk, cell_pick hk]

theorem sortBy_pickColumns {t : Table} (h : t.RowsConform) {cs : List Nat} {k : Nat}
    (hk : k < cs.length) :
    (pickColumns t cs).sortBy k = pickColumns (t.sortBy (cs.getD k 0)) cs := by
  have hrows : ((pickColumns t cs).sortBy k).rows =
      (pickColumns (t.sortBy (cs.getD k 0)) cs).rows := by
    rw [Table.sortBy, rows_pickColumns h, rows_pickColumns (rowsConform_sortBy h _), Table.sortBy]
    exact (List.map_mergeSort fun r _ s _ => (rowLE_pick hk r s).symm).symm
  exact congrArg (Table.mk (cs.map t.kind) (pickColumns t cs).header) hrows

theorem rowLT_pick {cs : List Nat} {k : Nat} (hk : k < cs.length) (r s : Row) :
    rowLT k (pick cs r) (pick cs s) = rowLT (cs.getD k 0) r s := by
  rw [rowLT, rowLT, cell_pick hk, cell_pick hk]

/-- Sorting listed columns takes the same steps as sorting the table, and fails where it does. -/
theorem isOk_sort_pickColumns {t : Table} (h : t.RowsConform) {cs : List Nat} {k : Nat}
    (hk : k < cs.length) :
    (Runs.sort (rowLT k) (pickColumns t cs).rows).isOk =
      (Runs.sort (rowLT (cs.getD k 0)) t.rows).isOk := by
  rw [rows_pickColumns h, Runs.sort_map (rowLT_pick hk)]
  cases Runs.sort (rowLT (cs.getD k 0)) t.rows <;> rfl

theorem map_label_range {t : Table} (h : t.header.length = t.width) :
    (List.range t.width).map t.label = t.header := by
  rw [← h]
  exact Table.map_getD_range t.header []

theorem pickColumns_range {t : Table} (h : t.WellFormed) :
    pickColumns t (List.range t.width) = t := by
  have hheader : (pickColumns t (List.range t.width)).header = t.header := by
    rw [header_pickColumns]
    split
    · next hsome =>
      have hne : t.header ≠ [] := by simpa [Table.hasHeader] using hsome
      exact map_label_range (h.header.resolve_left hne)
    · next hnone => simpa [Table.hasHeader] using hnone
  have hrows : (pickColumns t (List.range t.width)).rows = t.rows := by
    rw [rows_pickColumns h.rows]
    refine (List.map_congr_left fun r hr => ?_).trans (List.map_id _)
    rw [← h.rows.length_eq hr]
    exact Table.pick_range r
  have hschema : (pickColumns t (List.range t.width)).schema = t.schema := Table.map_kind_range t
  calc pickColumns t (List.range t.width)
      = ⟨t.schema, t.header, t.rows⟩ := by rw [← hschema, ← hheader, ← hrows]
    _ = t := rfl

/-! ### Projections -/

def positions (cs : List Nat) : List Int := cs.map fun c : Nat => (c : Int)

theorem project_positions {t : Table} {cs : List Nat} (hne : cs ≠ []) (hcs : ∀ c ∈ cs, c < t.width) :
    project t (positions cs) = .ok (pickColumns t cs) := by
  have hsome : (positions cs).isEmpty = false := by simp [positions, hne]
  have hmap : (positions cs).mapM t.position = .ok (cs.map id) := by
    rw [positions, List.mapM_map]
    exact mapM_eq_map fun c hc => Table.position_natCast (hcs c hc)
  rw [project, hsome, hmap, List.map_id]
  rfl

theorem project_range {t : Table} (h : t.WellFormed) (hwidth : t.width ≠ 0) :
    project t (positions (List.range t.width)) = .ok t := by
  have hne : List.range t.width ≠ [] := by rwa [Ne, List.range_eq_nil]
  rw [project_positions hne fun c hc => List.mem_range.mp hc, pickColumns_range h]

section
variable {t : Table} (h : t.WellFormed) {cs : List Nat} (hne : cs ≠ [])
  (hcs : ∀ c ∈ cs, c < t.width)
include hcs

theorem getD_lt_width {k : Nat} (hk : k < cs.length) : cs.getD k 0 < t.width := by
  rw [List.getD_eq_getElem _ _ hk]
  exact hcs _ (List.getElem_mem hk)

include h hne

theorem project_pickColumns {js : List Nat} (hjs : ∀ j ∈ js, j < cs.length) :
    ∃ v, project (pickColumns t cs) (positions js) = .ok v ∧
      project t (positions (renumbered cs js)) = .ok v := by
  by_cases hnil : js = []
  · rw [hnil]
    exact ⟨_, rfl, rfl⟩
  · have hsome : renumbered cs js ≠ [] := by simpa [renumbered] using hnil
    have hrange : ∀ c ∈ renumbered cs js, c < t.width := by
      intro c hc
      obtain ⟨j, hj, rfl⟩ := List.mem_map.mp hc
      exact getD_lt_width hcs (hjs j hj)
    refine ⟨_, project_positions hnil ((width_pickColumns t cs).symm ▸ hjs), ?_⟩
    rw [project_positions hsome hrange, pickColumns_pickColumns h.rows hne hjs]

theorem select_pickColumns {k : Nat} (hk : k < cs.length) {symbol literal : Text}
    {comparator : Comparator} (hsymbol : Comparator.read symbol = .ok comparator)
    (hliteral : IsLiteralFor (t.kind (cs.getD k 0)) literal) (legacy : Bool) :
    ∃ s v, select t (cs.getD k 0 : Nat) symbol literal legacy = .ok s ∧
      select (pickColumns t cs) k symbol literal legacy = .ok v ∧
      project s (positions cs) = .ok v := by
  obtain ⟨value, hvalue⟩ := exists_readLiteral hliteral
  have hvalue' : readLiteral ((pickColumns t cs).kind k) literal = .ok value := by
    rw [kind_pickColumns t hk, hvalue]
  have htest : ∀ r ∈ t.rows, comparator.test legacy (Row.cell (pick cs r) k) value =
      comparator.test legacy (r.cell (cs.getD k 0)) value := by
    intro r _
    rw [cell_pick hk]
  have hconform : (pickColumns t cs).RowsConform := (Table.wellFormed_ofRows ..).rows
  refine ⟨_, _, select_of_column h.rows hsymbol (getD_lt_width hcs hk) hvalue legacy,
    select_of_column hconform hsymbol ((width_pickColumns t cs).symm ▸ hk) hvalue' legacy, ?_⟩
  rw [selectRows, selectRows, keep_pickColumns h cs htest]
  exact project_positions (t := keep t _) hne hcs

theorem orderBy_pickColumns {k : Nat} (hk : k < cs.length) :
    (∃ s v, orderBy t (cs.getD k 0 : Nat) = .ok s ∧ orderBy (pickColumns t cs) k = .ok v ∧
      project s (positions cs) = .ok v) ∨
    t.Mixes (cs.getD k 0) ∧ orderBy t (cs.getD k 0 : Nat) = .error .integerTooLong ∧
      orderBy (pickColumns t cs) k = .error .integerTooLong := by
  have hconform : (pickColumns t cs).RowsConform := (Table.wellFormed_ofRows ..).rows
  have hlisted : orderBy (pickColumns t cs) k =
      okIf (Runs.sort (rowLT (cs.getD k 0)) t.rows).isOk ((pickColumns t cs).sortBy k)
        .integerTooLong := by
    rw [Table.orderBy_eq hconform ((width_pickColumns t cs).symm ▸ hk),
      isOk_sort_pickColumns h.rows hk]
  have hrange := getD_lt_width hcs hk
  have htable := Table.orderBy_eq h.rows hrange
  rw [hlisted, sortBy_pickColumns h.rows hk]
  cases hruns : (Runs.sort (rowLT (cs.getD k 0)) t.rows).isOk with
  | true =>
    rw [hruns] at htable
    exact Or.inl ⟨_, _, htable, rfl, project_positions (t := t.sortBy _) hne hcs⟩
  | false =>
    rw [hruns] at htable
    rcases Table.orderBy_cases h.rows hrange with hok | ⟨hm, herror⟩
    · cases htable.symm.trans hok
    · exact Or.inr ⟨hm, herror, rfl⟩

end

/-- A projection has a row for every row of the table, and what is done to its columns can be done to
the columns that they were: another projection lists these, and a selection or a sort by one of these
comes to the same before the projection. A sort that fails, which only one by a column that mixes
can do, fails on either side. All columns in order give back the table. -/
theorem project_renumbers {t : Table} (h : t.WellFormed) {cs : List Nat} (hne : cs ≠ [])
    (hcs : ∀ c ∈ cs, c < t.width) :
    ∃ u, project t (positions cs) = .ok u ∧ u.rows = t.rows.map (pick cs) ∧
      u.rows.length = t.rows.length ∧
      (∀ js : List Nat, (∀ j ∈ js, j < cs.length) → ∃ v, project u (positions js) = .ok v ∧
        project t (positions (renumbered cs js)) = .ok v) ∧
      (∀ k < cs.length, ∀ symbol literal comparator legacy,
        Comparator.read symbol = .ok comparator → IsLiteralFor (t.kind (cs.getD k 0)) literal →
        ∃ s v, select t (cs.getD k 0 : Nat) symbol literal legacy = .ok s ∧
          select u k symbol literal legacy = .ok v ∧ project s (positions cs) = .ok v) ∧
      (∀ k < cs.length,
        (∃ s v, orderBy t (cs.getD k 0 : Nat) = .ok s ∧ orderBy u k = .ok v ∧
          project s (positions cs) = .ok v) ∨
        t.Mixes (cs.getD k 0) ∧ orderBy t (cs.getD k 0 : Nat) = .error .integerTooLong ∧
          orderBy u k = .error .integerTooLong) ∧
      project t (positions (List.range t.width)) = .ok t := by
  obtain ⟨c, hc⟩ := List.exists_mem_of_ne_nil cs hne
  have hwidth : t.width ≠ 0 := Nat.ne_zero_of_lt (hcs c hc)
  refine ⟨pickColumns t cs, project_positions hne hcs, rows_pickColumns h.rows cs, ?_,
    fun js hjs => project_pickColumns h hne hcs hjs,
    fun k hk symbol literal comparator legacy hsymbol hliteral =>
      select_pickColumns h hne hcs hk hsymbol hliteral legacy,
    fun k hk => orderBy_pickColumns h hne hcs hk, project_range h hwidth⟩
  rw [rows_pickColumns h.rows, List.length_map]

/-! ### Repeated columns -/

/-- The marks come twice, and the second column of them is sorted by and selected by as the first. -/
theorem project_renumbers_sample :
    Sample.marks.WellFormed ∧ [1, 0, 0] ≠ [] ∧ (∀ c ∈ [1, 0, 0], c < Sample.marks.width) ∧
      (∀ j ∈ [2, 0], j < [1, 0, 0].length) ∧ 2 < [1, 0, 0].length ∧
      Comparator.read ">=" = .ok .ge ∧ IsLiteralFor (Sample.marks.kind 0) "2" ∧
      ∃ u, project Sample.marks [1, 0, 0] = .ok u ∧ u.header = ["note", "mark", "mark"] ∧
        (∃ v, project u [2, 0] = .ok v ∧ project Sample.marks [0, 1] = .ok v) ∧
        (∃ s v, select Sample.marks 0 ">=" "2" = .ok s ∧ select u 2 ">=" "2" = .ok v ∧
          project s [1, 0, 0] = .ok v ∧ v.rows.map (·.cell 1) =
            [.numeric (some 2), .numeric (some 2), .numeric (some 10)]) ∧
        ∃ s v, orderBy Sample.marks 0 = .ok s ∧ orderBy u 2 = .ok v ∧
          project s [1, 0, 0] = .ok v := by
  have h : Sample.marks.WellFormed := by decide
  have hne : [1, 0, 0] ≠ [] := by decide
  have hcs : ∀ c ∈ [1, 0, 0], c < Sample.marks.width := by decide
  have hjs : ∀ j ∈ [2, 0], j < [1, 0, 0].length := by decide
  have hk : 2 < [1, 0, 0].length := by decide
  have hge : Comparator.read ">=" = .ok .ge := rfl
  have htwo : IsLiteralFor (Sample.marks.kind 0) "2" :=
    ⟨[], "2", by decide, by decide, by decide, by decide, by decide⟩
  obtain ⟨u, hu, -, -, hproject, hselect, horder, -⟩ := project_renumbers h hne hcs
  obtain ⟨s, v, hs, hv, hsv⟩ := hselect 2 hk ">=" "2" .ge false hge htwo
  have hheader : u.header = ["note", "mark", "mark"] :=
    map_eq_of_ok hu (f := Table.header) (by decide)
  have hboth : (select Sample.marks 0 ">=" "2" >>= fun s => project s [1, 0, 0]) = .ok v :=
    bind_eq_ok.mpr ⟨s, hs, hsv⟩
  have hmarks : v.rows.map (·.cell 1) =
      [.numeric (some 2), .numeric (some 2), .numeric (some 10)] :=
    map_eq_of_ok hboth (f := fun v => v.rows.map (·.cell 1)) (by decide)
  have hnone : ¬Sample.marks.Mixes 0 := Table.not_mixes_of_isWritable (by decide) 0
  exact ⟨h, hne, hcs, hjs, hk, hge, htwo, u, hu, hheader, hproject [2, 0] hjs,
    ⟨s, v, hs, hv, hsv, hmarks⟩, (horder 2 hk).resolve_right fun hm => hnone hm.1⟩

/-- A null and the least number of too many digits are listed, but not sorted. -/
theorem not_project_renumbers :
    ¬∀ (t : Table) (cs : List Nat) (k : Nat), t.WellFormed → cs ≠ [] → (∀ c ∈ cs, c < t.width) →
      k < cs.length → ∃ u s v, project t (positions cs) = .ok u ∧
        orderBy t (cs.getD k 0 : Nat) = .ok s ∧ orderBy u k = .ok v ∧
        project s (positions cs) = .ok v := by
  intro h
  obtain ⟨u, s, v, -, hs, -⟩ :=
    h Table.Sample.mixed [0] 0 Table.Sample.wellFormed_mixed (by decide) (by decide) (by decide)
  rw [show orderBy Table.Sample.mixed (([0] : List Nat).getD 0 0 : Nat) = _ from
    Table.Sample.orderBy_mixed] at hs
  cases hs

end TableAlgebra.Algebra
