import Mathlib.Data.List.GetD
import TableAlgebra.Proofs.Algebra.Admission
import TableAlgebra.Proofs.Outcome

/-!
# Tables in the hands of a caller

Rows enter a table only if they conform, and `select` and `project` rely on that: a row that does
not conform is left out of their results, and nobody is told. But whoever holds a table can also put
another cell into a row (`replaceCell`), and there the kind of the cell is not looked at. So all rows
conform exactly as long as each cell that is put into a row is of the kind of its column.

* `Change`, `change`     what a caller can do to a table, and the table after it;
* `change_cases`         what a change does to the rows;
* `Shaped.change`        no change touches the schema or the widths;
* `rowsConform_change`   a change keeps the rows conforming just if the cell it puts in fits;
* `dropsNone_iff`        the operators lose no row just if all rows conform;
* `changes_spec`         so it goes along any list of changes.
-/

namespace TableAlgebra.Table

open TableAlgebra.Algebra (gather select selectBy project projectBy pick pickColumns pickColumnsBy)

/-! ### Changes -/

/-- What a caller can do to a table. -/
inductive Change where
  | append (row : Row)
  | appendAll (rows : List Row)
  | setHeader (header : List Text)
  | removeHeader
  | sortBy (column : Int)
  | replaceCell (row column : Int) (c : Cell)
  deriving Repr, DecidableEq

/-- The table after a change. One that is refused leaves it as it was, and a sort that comes upon
cells that cannot be compared leaves the rows as far as it has arranged them. -/
def change (t : Table) : Change → Table
  | .append row => (t.append row).2
  | .appendAll rows => (t.appendAll rows).2
  | .setHeader header => (t.setHeader header).toOption.getD t
  | .removeHeader => t.removeHeader
  | .sortBy column => (t.sort column).2
  | .replaceCell row column c => (t.replaceCell row column c).2

def changes (t : Table) (cs : List Change) : Table := cs.foldl change t

/-- A cell that the change puts into a row is of the kind of its column. -/
def Fits (t : Table) : Change → Prop
  | .replaceCell row column c =>
    0 ≤ row ∧ row < t.rows.length → 0 ≤ column ∧ column < t.width → c.kind = t.kind column.toNat
  | _ => True

def AllFit : Table → List Change → Prop
  | _, [] => True
  | t, c :: cs => t.Fits c ∧ AllFit (t.change c) cs

/-! ### What a change does -/

/-- Of the second table every row is in the first or conforms to its schema; the schema is the same,
and the header fits if it did. -/
structure Careful (t u : Table) : Prop where
  schema : u.schema = t.schema
  header : t.HeaderFits → u.HeaderFits
  rows : ∀ r ∈ u.rows, r ∈ t.rows ∨ r.conforms t.schema = true

namespace Careful

theorem refl (t : Table) : Careful t t := ⟨rfl, id, fun _ hr => Or.inl hr⟩

theorem grow {t : Table} {rows : List Row} (h : ∀ r ∈ rows, r.conforms t.schema = true) :
    Careful t { t with rows := t.rows ++ rows } :=
  ⟨rfl, id, fun r hr => (List.mem_append.mp hr).imp_right (h r)⟩

theorem rename {t : Table} {header : List Text} (h : header = [] ∨ header.length = t.width) :
    Careful t { t with header } :=
  ⟨rfl, fun _ => h, fun _ hr => Or.inl hr⟩

theorem sort (t : Table) (column : Int) : Careful t (t.sort column).2 := by
  rw [sort_eq_with_rows]
  exact ⟨rfl, id, fun _ hr => Or.inl ((perm_rows_sort t column).mem_iff.mp hr)⟩

end Careful

/-- A change is careful, or it puts a cell into a row. -/
theorem change_cases (t : Table) (c : Change) :
    (Careful t (t.change c) ∧ t.Fits c) ∨
      ∃ (i : Nat) (r : Row) (column : Int) (new : Cell), c = .replaceCell i column new ∧
        t.rows[i]? = some r ∧
        t.change c = { t with rows := t.rows.set i (r.replace column new).2 } := by
  cases c with
  | append row =>
    refine Or.inl ⟨?_, trivial⟩
    unfold change append
    dsimp only
    split
    · next h => exact Careful.grow fun r hr => List.mem_singleton.mp hr ▸ h
    · exact Careful.refl t
  | appendAll rows =>
    refine Or.inl ⟨?_, trivial⟩
    unfold change appendAll
    dsimp only
    split
    · next h => exact Careful.grow (List.all_eq_true.mp h)
    · exact Careful.refl t
  | setHeader header =>
    refine Or.inl ⟨?_, trivial⟩
    unfold change setHeader
    dsimp only
    split
    · exact Careful.rename (Or.inl rfl)
    · split
      · next h => exact Careful.rename (Or.inr h)
      · exact Careful.refl t
  | removeHeader => exact Or.inl ⟨Careful.rename (Or.inl rfl), trivial⟩
  | sortBy column => exact Or.inl ⟨Careful.sort t column, trivial⟩
  | replaceCell row column new =>
    by_cases hrow : 0 ≤ row ∧ row < t.rows.length
    · obtain ⟨i, rfl⟩ := Int.eq_ofNat_of_zero_le hrow.1
      have hi : i < t.rows.length := by omega
      refine Or.inr ⟨i, t.rows[i], column, new, rfl, List.getElem?_eq_getElem hi, ?_⟩
      unfold change replaceCell rowAt
      dsimp only
      rw [if_pos hrow.1, Int.toNat_natCast, List.getElem?_eq_getElem hi]
    · have hnone : t.rowAt row = none := by
        unfold rowAt
        split
        · rw [List.getElem?_eq_none_iff]
          omega
        · rfl
      refine Or.inl ⟨?_, fun h => absurd h hrow⟩
      unfold change replaceCell
      dsimp only
      rw [hnone]
      exact Careful.refl t

/-! ### What no change touches -/

/-- The table has the schema, its header is absent or as wide as the schema, and so is each row. -/
structure Shaped (schema : Schema) (t : Table) : Prop where
  schema_eq : t.schema = schema
  header : t.HeaderFits
  widths : ∀ r ∈ t.rows, r.length = schema.length

theorem shaped_empty (schema : Schema) (header : List Text) :
    Shaped schema (empty schema header) where
  schema_eq := rfl
  header := (wellFormed_empty schema header).header
  widths _ h := absurd h List.not_mem_nil

theorem Shaped.change {schema : Schema} {t : Table} (h : Shaped schema t) (c : Change) :
    Shaped schema (t.change c) := by
  rcases change_cases t c with ⟨hc, -⟩ | ⟨i, r, column, new, -, hr, heq⟩
  · refine ⟨hc.schema.trans h.schema_eq, hc.header h.header, fun r hr => ?_⟩
    rcases hc.rows r hr with hr | hr
    · exact h.widths r hr
    · rw [Row.length_of_conforms hr, h.schema_eq]
  · rw [heq]
    refine ⟨h.schema_eq, h.header, fun s hs => ?_⟩
    rcases List.mem_or_eq_of_mem_set hs with hs | rfl
    · exact h.widths s hs
    · rw [Row.length_replace]
      exact h.widths r (List.mem_of_getElem? hr)

theorem Shaped.changes {schema : Schema} {t : Table} (h : Shaped schema t) (cs : List Change) :
    Shaped schema (t.changes cs) := by
  induction cs generalizing t with
  | nil => exact h
  | cons c cs ih => exact ih (h.change c)

/-! ### What keeps the rows conforming -/

theorem conforms_replace {r : Row} {schema : Schema} (h : r.conforms schema = true) (i : Int)
    (c : Cell) : (r.replace i c).2.conforms schema = true ↔
      (0 ≤ i ∧ i < schema.length → c.kind = schema.getD i.toNat .text) := by
  have hlength := Row.length_of_conforms h
  unfold Row.replace
  rw [hlength]
  split
  · next hi =>
    have hlt : i.toNat < schema.length := by omega
    have hset : (r.set i.toNat c).map Cell.kind = schema.set i.toNat c.kind := by
      rw [List.map_set, Row.conforms_iff.mp h]
    rw [Row.conforms_iff, hset, List.getD_eq_getElem _ _ hlt]
    constructor
    · intro heq _
      have hget : (schema.set i.toNat c.kind)[i.toNat]? = schema[i.toNat]? := congrArg (·[_]?) heq
      rwa [List.getElem?_set_self hlt, List.getElem?_eq_getElem hlt, Option.some.injEq] at hget
    · intro hk
      rw [hk hi]
      exact List.set_getElem_self hlt
  · next hi => exact ⟨fun _ h => absurd h hi, fun _ => h⟩

theorem rowsConform_change {t : Table} (h : t.RowsConform) (c : Change) :
    (t.change c).RowsConform ↔ t.Fits c := by
  rcases change_cases t c with ⟨hc, hfits⟩ | ⟨i, r, column, new, rfl, hr, heq⟩
  · refine iff_of_true (fun r hr => ?_) hfits
    rw [hc.schema]
    exact (hc.rows r hr).elim (h r) id
  · have hi : i < t.rows.length := (List.getElem?_eq_some_iff.mp hr).1
    have hin : 0 ≤ (i : Int) ∧ (i : Int) < t.rows.length := by omega
    have hnew := conforms_replace (h r (List.mem_of_getElem? hr)) column new
    rw [heq]
    constructor
    · intro hall _
      exact hnew.mp (hall _ (List.mem_set hi _))
    · intro hfit s hs
      rcases List.mem_or_eq_of_mem_set hs with hs | rfl
      · exact h s hs
      · exact hnew.mpr (hfit hin)

/-- All tables along the changes have conforming rows just if every change fits. -/
theorem rowsConform_changes {t : Table} (h : t.RowsConform) (cs : List Change) :
    (∀ n, (t.changes (cs.take n)).RowsConform) ↔ AllFit t cs := by
  induction cs generalizing t with
  | nil =>
    refine iff_of_true (fun n => ?_) trivial
    rw [List.take_nil]
    exact h
  | cons c cs ih =>
    constructor
    · intro hall
      have hc : (t.change c).RowsConform := hall 1
      exact ⟨(rowsConform_change h c).mp hc, (ih hc).mp fun n => hall (n + 1)⟩
    · rintro ⟨hfit, hfits⟩ n
      have hc := (rowsConform_change h c).mpr hfit
      cases n with
      | zero => exact h
      | succ n => exact (ih hc).mpr hfits n

/-! ### What the operators lose -/

/-- No selection and no projection leaves out a row that it has made. -/
def DropsNone (t : Table) : Prop :=
  (∀ column symbol literal legacy,
    select t column symbol literal legacy = selectBy gather t column symbol literal legacy) ∧
  ∀ columns, project t columns = projectBy gather t columns

theorem pick_range (r : Row) : pick (List.range r.length) r = r := map_getD_range r _

theorem map_kind_range (t : Table) : (List.range t.width).map t.kind = t.schema :=
  map_getD_range t.schema _

theorem mapM_position_range (t : Table) :
    ((List.range t.width).map Int.ofNat).mapM t.position = .ok (List.range t.width) := by
  have hposition : ∀ i ∈ List.range t.width, t.position (Int.ofNat i) = .ok (id i) :=
    fun i hi => position_natCast (List.mem_range.mp hi)
  rw [List.mapM_map]
  exact (mapM_eq_map hposition).trans (congrArg Except.ok (List.map_id _))

/-- The projection on all columns makes the rows of the table. -/
theorem rowsConform_of_pickColumns {schema : Schema} {t : Table} (h : Shaped schema t)
    (hall : pickColumns t (List.range t.width) = pickColumnsBy gather t (List.range t.width)) :
    t.RowsConform := by
  have hwidth : t.width = schema.length := congrArg List.length h.schema_eq
  have hpick : t.rows.map (pick (List.range t.width)) = t.rows := by
    refine (List.map_congr_left fun r hr => ?_).trans (List.map_id _)
    rw [hwidth, ← h.widths r hr]
    exact pick_range r
  have hkept : t.rows.filter (·.conforms t.schema) = t.rows := by
    have hrows := congrArg rows hall
    unfold pickColumns pickColumnsBy ofRows sift gather at hrows
    dsimp only at hrows
    rwa [map_kind_range, hpick] at hrows
  exact List.filter_eq_self.mp hkept

theorem dropsNone_iff {schema : Schema} {t : Table} (h : Shaped schema t) :
    DropsNone t ↔ t.RowsConform := by
  constructor
  · intro hnone
    have hproject := hnone.2 ((List.range t.width).map Int.ofNat)
    unfold project projectBy at hproject
    rw [mapM_position_range] at hproject
    by_cases hw : t.schema = []
    · intro r hr
      have hr : r = [] := List.length_eq_zero_iff.mp (by rw [h.widths r hr, ← h.schema_eq, hw]; rfl)
      rw [hr, hw]
      rfl
    · have hsome : ((List.range t.width).map Int.ofNat).isEmpty = false := by
        rw [List.isEmpty_map, List.isEmpty_eq_false_iff, Ne, List.range_eq_nil, width,
          List.length_eq_zero_iff]
        exact hw
      rw [hsome] at hproject
      exact rowsConform_of_pickColumns h (Except.ok.inj hproject)
  · intro hrows
    exact ⟨Algebra.select_eq_gather hrows, Algebra.project_eq_gather hrows⟩

/-! ### Along any changes -/

/-- Whatever a caller does to a table, its schema stays, the header and the rows are as wide as it
says, and the rows conform all the time, or no row is ever lost by an operator, exactly if every cell
that is put into a row fits its column. -/
theorem changes_spec (schema : Schema) (header : List Text) (cs : List Change) :
    (∀ n, Shaped schema ((empty schema header).changes (cs.take n))) ∧
    ((∀ n, ((empty schema header).changes (cs.take n)).RowsConform) ↔
      AllFit (empty schema header) cs) ∧
    ((∀ n, DropsNone ((empty schema header).changes (cs.take n))) ↔
      AllFit (empty schema header) cs) := by
  have hshaped : ∀ n, Shaped schema ((empty schema header).changes (cs.take n)) :=
    fun n => (shaped_empty schema header).changes (cs.take n)
  have hconform := rowsConform_changes (wellFormed_empty schema header).rows cs
  refine ⟨hshaped, hconform, ?_⟩
  rw [← hconform]
  exact forall_congr' fun n => dropsNone_iff (hshaped n)

/-- A text is put into a column of integers: the row does not conform, and a projection loses it. -/
theorem not_wellFormed_changes :
    ¬∀ (schema : Schema) (header : List Text) (cs : List Change),
      ((empty schema header).changes cs).WellFormed ∧
        DropsNone ((empty schema header).changes cs) := by
  intro h
  have hproject := (h [.numeric] [] [.append [.numeric (some 1)],
    .replaceCell 0 0 (.text (some "x"))]).2.2 [0]
  exact absurd (congrArg (·.toOption.map rows) hproject) (by decide +kernel)

end TableAlgebra.Table
