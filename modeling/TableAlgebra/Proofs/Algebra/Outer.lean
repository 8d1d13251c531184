import Mathlib.Data.List.GetD
import Mathlib.Data.List.Nodup
import TableAlgebra.Proofs.Algebra.Admission
import TableAlgebra.Proofs.Outcome

/-!
# The outer join, row by row

Each row of an outer join comes from a row of either table, or from a row of one table that matches
none of the other. Rows are told apart by their positions, so equal ones count separately.

* `matchingPairs`        the positions of the rows that match, those of the left table running slower;
* `Origin`, `origins`    where the rows of the join come from, in order;
* `rows_outerJoinOn`     the rows of the join are made from their origins;
* `countP_left`, `countP_right`   a row is in as many rows of the join as it matches, and in one if
                         it matches none;
* `outerJoin_spec`       the outer join on columns that exist.
-/

namespace TableAlgebra.Algebra

/-! ### Matching positions -/

/-- The row at a position of a table. -/
def rowOf (t : Table) (i : Nat) : Row := t.rows.getD i []

/-- The rows at two positions agree in every pair of columns of the same kind. -/
def Matches (l r : Table) (pairs : List (Nat × Nat)) (i j : Nat) : Prop :=
  ∀ p ∈ pairs, l.kind p.1 = r.kind p.2 → (rowOf l i).cell p.1 = (rowOf r j).cell p.2

instance (l r : Table) (pairs : List (Nat × Nat)) (i j : Nat) : Decidable (Matches l r pairs i j) :=
  inferInstanceAs (Decidable (∀ p ∈ pairs, _ → _))

/-- The pairs of numbers below two bounds that stand in a relation, the second running faster. -/
def grid (n m : Nat) (p : Nat → Nat → Bool) : List (Nat × Nat) :=
  (List.range n).flatMap fun i => ((List.range m).filter (p i)).map fun j => (i, j)

theorem grid_succ (n m : Nat) (p : Nat → Nat → Bool) :
    grid (n + 1) m p = grid n m p ++ ((List.range m).filter (p n)).map fun j => (n, j) := by
  rw [grid, List.range_succ, List.flatMap_append, List.flatMap_singleton]
  rfl

theorem countP_fst_grid (n m : Nat) (p : Nat → Nat → Bool) (i : Nat) :
    (grid n m p).countP (fun q => q.1 = i) = if i < n then (List.range m).countP (p i) else 0 := by
  induction n with
  | zero => rfl
  | succ n ih =>
    rw [grid_succ, List.countP_append, ih, List.countP_map]
    by_cases h : n = i
    · have hall : ((fun q : Nat × Nat => decide (q.1 = i)) ∘ fun j => (n, j)) = fun _ => true := by
        funext j
        exact decide_eq_true h
      have hlt : ¬i < n := by omega
      have hlt' : i < n + 1 := by omega
      rw [hall, List.countP_true, if_neg hlt, if_pos hlt', Nat.zero_add, h,
        ← List.countP_eq_length_filter]
    · have hnone : ((fun q : Nat × Nat => decide (q.1 = i)) ∘ fun j => (n, j)) = fun _ => false := by
        funext j
        exact decide_eq_false h
      have hiff : i < n + 1 ↔ i < n := by omega
      rw [hnone, List.countP_false]
      simp only [hiff, Function.const_apply, Nat.add_zero]

/-- A number below the bound is there once, if the test lets it through. -/
theorem countP_filter_range {m j : Nat} (hj : j < m) (p : Nat → Bool) :
    ((List.range m).filter p).countP (fun k => k = j) = if p j then 1 else 0 := by
  have hone : (List.range m).count j = 1 :=
    List.count_eq_one_of_mem List.nodup_range (List.mem_range.mpr hj)
  by_cases h : p j = true
  · rw [if_pos h, ← hone, ← List.count_filter h, List.count_eq_countP]
    rfl
  · rw [if_neg h, List.countP_eq_zero]
    intro k hk
    rw [decide_eq_true_iff]
    rintro rfl
    exact h (List.mem_filter.mp hk).2

theorem countP_snd_grid {m j : Nat} (hj : j < m) (n : Nat) (p : Nat → Nat → Bool) :
    (grid n m p).countP (fun q => q.2 = j) = (List.range n).countP (p · j) := by
  induction n with
  | zero => rfl
  | succ n ih =>
    rw [grid_succ, List.countP_append, ih, List.countP_map, List.range_succ, List.countP_append,
      List.countP_singleton]
    exact congrArg _ (countP_filter_range hj (p n))

/-! ### Origins -/

/-- The positions of the rows that a row of a join is made from; none stands for the nulls of the
table. -/
structure Origin where
  left : Option Nat
  right : Option Nat
  deriving Repr, DecidableEq

namespace Origin

/-- The row at a position, or the nulls. -/
def part (t : Table) : Option Nat → Row
  | some i => rowOf t i
  | none => Row.nulls t.schema

/-- The row that is made from both parts. -/
def row (l r : Table) (o : Origin) : Row := part l o.left ++ part r o.right

end Origin

section
variable (l r : Table) (pairs : List (Nat × Nat))

/-- The positions of the rows that match, row by row of the left table. -/
def matchingPairs : List (Nat × Nat) :=
  grid l.rows.length r.rows.length fun i j => Matches l r pairs i j

def joined : List Origin := (matchingPairs l r pairs).map fun q => ⟨some q.1, some q.2⟩

def onlyLeft : List Origin :=
  ((List.range l.rows.length).filter fun i =>
    ∀ j ∈ List.range r.rows.length, ¬Matches l r pairs i j).map fun i => ⟨some i, none⟩

def onlyRight : List Origin :=
  ((List.range r.rows.length).filter fun j =>
    ∀ i ∈ List.range l.rows.length, ¬Matches l r pairs i j).map fun j => ⟨none, some j⟩

def origins : List Origin := joined l r pairs ++ onlyLeft l r pairs ++ onlyRight l r pairs

end

/-! ### Rows by position -/

theorem map_rowOf_range (t : Table) : (List.range t.rows.length).map (rowOf t) = t.rows := by
  apply List.ext_getElem
  · rw [List.length_map, List.length_range]
  · intro i hi hi'
    rw [List.getElem_map, List.getElem_range, rowOf, List.getD_eq_getElem _ _ hi']

theorem filter_rows (t : Table) (p : Row → Bool) :
    t.rows.filter p = ((List.range t.rows.length).filter fun i => p (rowOf t i)).map (rowOf t) := by
  conv_lhs => rw [← map_rowOf_range t]
  exact List.filter_map

theorem flatMap_rows {β : Type} (t : Table) (f : Row → List β) :
    t.rows.flatMap f = (List.range t.rows.length).flatMap fun i => f (rowOf t i) := by
  conv_lhs => rw [← map_rowOf_range t]
  exact List.flatMap_map _ _ _

theorem any_rows (t : Table) (p : Row → Bool) :
    t.rows.any p = (List.range t.rows.length).any fun i => p (rowOf t i) := by
  conv_lhs => rw [← map_rowOf_range t]
  exact List.any_map

/-- The rows of a table that are related to none of another table. -/
theorem rows_unrelated (t u : Table) {p : Row → Row → Bool} {q : Nat → Nat → Prop}
    [∀ i j, Decidable (q i j)] (htest : ∀ i j, p (rowOf t i) (rowOf u j) = decide (q i j)) :
    t.rows.filter (fun a => !u.rows.any (p a)) =
      ((List.range t.rows.length).filter fun i =>
        ∀ j ∈ List.range u.rows.length, ¬q i j).map (rowOf t) := by
  have hnone : ∀ i, (!u.rows.any (p (rowOf t i))) =
      decide (∀ j ∈ List.range u.rows.length, ¬q i j) := by
    intro i
    rw [any_rows, Bool.eq_iff_iff]
    simp [htest]
  rw [filter_rows]
  simp only [hnone]

section
variable (l r : Table) (pairs : List (Nat × Nat))

/-- Pairs of columns of different kinds do not count. -/
theorem agree_filter_sameKind (i j : Nat) :
    agree (pairs.filter (sameKind l r)) (rowOf l i) (rowOf r j) = decide (Matches l r pairs i j) := by
  rw [Bool.eq_iff_iff, agree, List.all_eq_true, decide_eq_true_iff]
  simp only [List.mem_filter, sameKind, decide_eq_true_iff, and_imp]
  exact Iff.rfl

theorem joinedRows_eq :
    joinedRows l r (pairs.filter (sameKind l r)) = (joined l r pairs).map (Origin.row l r) := by
  have hrow : ∀ i, ((r.rows.filter (agree (pairs.filter (sameKind l r)) (rowOf l i))).map
      (rowOf l i ++ ·)) = (((List.range r.rows.length).filter fun j =>
        decide (Matches l r pairs i j)).map fun j => (i, j)).map fun q =>
          Origin.row l r ⟨some q.1, some q.2⟩ := by
    intro i
    rw [filter_rows, List.map_map, List.map_map]
    simp only [agree_filter_sameKind]
    rfl
  rw [joinedRows, flatMap_rows, joined, matchingPairs, grid, List.map_map, List.map_flatMap]
  exact congrArg (fun f => (List.range l.rows.length).flatMap f) (funext hrow)

theorem leftAlone_eq :
    leftAlone l r (pairs.filter (sameKind l r)) = (onlyLeft l r pairs).map (Origin.row l r) := by
  rw [leftAlone, onlyLeft, rows_unrelated l r (agree_filter_sameKind l r pairs), List.map_map,
    List.map_map]
  rfl

theorem rightAlone_eq :
    rightAlone l r (pairs.filter (sameKind l r)) = (onlyRight l r pairs).map (Origin.row l r) := by
  rw [rightAlone, onlyRight, rows_unrelated r l (p := fun b a => agree _ a b) fun j i =>
    agree_filter_sameKind l r pairs i j, List.map_map, List.map_map]
  rfl

end

/-! ### How often a row is in the result -/

/-- A number that is related to none below the other bound is let through. -/
theorem countP_unrelated {n i : Nat} (hi : i < n) (m : Nat) (q : Nat → Nat → Prop)
    [∀ i j, Decidable (q i j)] :
    ((List.range n).filter fun i => ∀ j ∈ List.range m, ¬q i j).countP (fun k => k = i) =
      if (List.range m).countP (fun j => q i j) = 0 then 1 else 0 := by
  have hnone : (List.range m).countP (fun j => q i j) = 0 ↔ ∀ j ∈ List.range m, ¬q i j := by
    rw [List.countP_eq_zero]
    simp only [decide_eq_true_iff]
  rw [countP_filter_range hi]
  simp only [hnone, decide_eq_true_iff]

section
variable {l r : Table} {pairs : List (Nat × Nat)}

theorem countP_left {i : Nat} (hi : i < l.rows.length) :
    (origins l r pairs).countP (fun o => o.left = some i) =
      max 1 ((List.range r.rows.length).countP fun j => Matches l r pairs i j) := by
  have hjoined : (joined l r pairs).countP (fun o => o.left = some i) =
      (matchingPairs l r pairs).countP fun q => q.1 = i := by
    simp [joined, List.countP_map, Function.comp_def]
  have hleft : (onlyLeft l r pairs).countP (fun o => o.left = some i) =
      ((List.range l.rows.length).filter fun i =>
        ∀ j ∈ List.range r.rows.length, ¬Matches l r pairs i j).countP (fun k => k = i) := by
    simp [onlyLeft, List.countP_map, Function.comp_def]
  have hright : (onlyRight l r pairs).countP (fun o => o.left = some i) = 0 := by
    simp [onlyRight, List.countP_map, Function.comp_def]
  rw [origins, List.countP_append, List.countP_append, hjoined, hleft, hright, matchingPairs,
    countP_fst_grid, if_pos hi, countP_unrelated hi]
  split <;> omega

theorem countP_right {j : Nat} (hj : j < r.rows.length) :
    (origins l r pairs).countP (fun o => o.right = some j) =
      max 1 ((List.range l.rows.length).countP fun i => Matches l r pairs i j) := by
  have hjoined : (joined l r pairs).countP (fun o => o.right = some j) =
      (matchingPairs l r pairs).countP fun q => q.2 = j := by
    simp [joined, List.countP_map, Function.comp_def]
  have hleft : (onlyLeft l r pairs).countP (fun o => o.right = some j) = 0 := by
    simp [onlyLeft, List.countP_map, Function.comp_def]
  have hright : (onlyRight l r pairs).countP (fun o => o.right = some j) =
      ((List.range r.rows.length).filter fun j =>
        ∀ i ∈ List.range l.rows.length, ¬Matches l r pairs i j).countP (fun k => k = j) := by
    simp [onlyRight, List.countP_map, Function.comp_def]
  rw [origins, List.countP_append, List.countP_append, hjoined, hleft, hright, matchingPairs,
    countP_snd_grid hj, countP_unrelated hj _ fun j i => Matches l r pairs i j]
  split <;> omega

end

/-! ### The joins -/

theorem positionPairs_natCast {l r : Table} {pairs : List (Nat × Nat)}
    (inRange : ∀ p ∈ pairs, p.1 < l.width ∧ p.2 < r.width) :
    positionPairs l r (pairs.map fun p => ((p.1 : Int), (p.2 : Int))) = .ok pairs := by
  have hpair : ∀ p ∈ pairs, positionPair l r ((p.1 : Int), (p.2 : Int)) = .ok p := by
    intro p hp
    obtain ⟨hl, hr⟩ := inRange p hp
    rw [positionPair, Table.position_natCast hl, Table.position_natCast hr]
    rfl
  rw [positionPairs, List.mapM_map]
  have hmap := mapM_eq_map (g := id) hpair
  rwa [List.map_id] at hmap

section
variable {l r : Table} (hl : l.WellFormed) (hr : r.WellFormed)
include hl hr

/-- The names of both tables are as many as there are columns. -/
theorem header_combined (rows : List Row) : (combined l r rows).header = combinedHeader l r := by
  show Table.fitHeader (l.schema ++ r.schema) (combinedHeader l r) = _
  by_cases h : (l.hasHeader && r.hasHeader) = true
  · have hwidth : (combinedHeader l r).length = (l.schema ++ r.schema).length := by
      obtain ⟨hln, hrn⟩ := Bool.and_eq_true_iff.mp h
      have hl' : l.header.length = l.schema.length :=
        hl.header.resolve_left fun e => by simp [Table.hasHeader, e] at hln
      have hr' : r.header.length = r.schema.length :=
        hr.header.resolve_left fun e => by simp [Table.hasHeader, e] at hrn
      rw [combinedHeader, if_pos h, List.length_append, List.length_append, hl', hr']
    exact Table.fitHeader_of_length_eq hwidth
  · rw [combinedHeader, if_neg h, Table.fitHeader]
    split <;> rfl

theorem rows_outerJoinOn (pairs : List (Nat × Nat)) :
    (outerJoinOn l r (pairs.filter (sameKind l r))).rows =
      (origins l r pairs).map (Origin.row l r) := by
  rw [outerJoinOn_eq_gather hl.rows hr.rows, origins, List.map_append, List.map_append,
    ← joinedRows_eq, ← leftAlone_eq, ← rightAlone_eq]
  rfl

theorem joinOn_eq (pairs : List (Nat × Nat)) (hln : l.rows ≠ []) (hrn : r.rows ≠ []) :
    joinOn l r (pairs.filter (sameKind l r)) =
      gather (l.schema ++ r.schema) (combinedHeader l r)
        ((joined l r pairs).map (Origin.row l r)) := by
  have hrows : (l.rows.isEmpty || r.rows.isEmpty) = false := by simp [hln, hrn]
  rw [joinOn_eq_gather hl.rows hr.rows, joinOnBy, hrows, if_neg Bool.false_ne_true, joinedRows_eq]
  rfl

/-- The outer join has the columns of both tables, and its rows come from the rows that match, then
from those of the left table that match none, then from those of the right one. -/
theorem outerJoin_spec {pairs : List (Nat × Nat)}
    (inRange : ∀ p ∈ pairs, p.1 < l.width ∧ p.2 < r.width) :
    ∃ t, outerJoin l r (pairs.map fun p => ((p.1 : Int), (p.2 : Int))) = .ok t ∧
      t.schema = l.schema ++ r.schema ∧
      t.header = (if l.hasHeader && r.hasHeader then l.header ++ r.header else []) ∧
      t.rows = (origins l r pairs).map (Origin.row l r) ∧
      (∀ i < l.rows.length, (origins l r pairs).countP (fun o => o.left = some i) =
        max 1 ((List.range r.rows.length).countP fun j => Matches l r pairs i j)) ∧
      (∀ j < r.rows.length, (origins l r pairs).countP (fun o => o.right = some j) =
        max 1 ((List.range l.rows.length).countP fun i => Matches l r pairs i j)) ∧
      (l.rows ≠ [] → r.rows ≠ [] →
        join l r (pairs.map fun p => ((p.1 : Int), (p.2 : Int))) =
          .ok { t with rows := (joined l r pairs).map (Origin.row l r) }) := by
  have hpositions := positionPairs_natCast inRange
  refine ⟨outerJoinOn l r (pairs.filter (sameKind l r)), ?_, rfl, header_combined hl hr _,
    rows_outerJoinOn hl hr pairs, fun i hi => countP_left hi, fun j hj => countP_right hj, ?_⟩
  · rw [outerJoin, hpositions]
    rfl
  · intro hln hrn
    rw [join, hpositions]
    exact congrArg Except.ok (joinOn_eq hl hr pairs hln hrn)

end

/-! ### Equal rows, nulls and columns of different kinds -/

namespace Sample

def animals : Table :=
  { schema := [.numeric, .text], header := ["id", "name"],
    rows := [[.numeric (some 1), .text (some "ant")], [.numeric (some 1), .text (some "ant")],
      [.numeric none, .text (some "bee")], [.numeric (some 7), .text none]] }

def legs : Table :=
  { schema := [.numeric], rows := [[.numeric (some 1)], [.numeric (some 6)], [.numeric none]] }

end Sample

/-- The second pair of columns does not count. A null matches a null, and each of the equal rows
is joined. -/
theorem outerJoin_spec_sample :
    Sample.animals.WellFormed ∧ Sample.legs.WellFormed ∧
      (∀ p ∈ [(0, 0), (1, 0)], p.1 < Sample.animals.width ∧ p.2 < Sample.legs.width) ∧
      ∃ t, outerJoin Sample.animals Sample.legs [(0, 0), (1, 0)] = .ok t ∧ t.header = [] ∧
        t.rows = [[.numeric (some 1), .text (some "ant"), .numeric (some 1)],
          [.numeric (some 1), .text (some "ant"), .numeric (some 1)],
          [.numeric none, .text (some "bee"), .numeric none],
          [.numeric (some 7), .text none, .numeric none],
          [.numeric none, .text none, .numeric (some 6)]] := by
  have hl : Sample.animals.WellFormed := by decide
  have hr : Sample.legs.WellFormed := by decide
  have inRange : ∀ p ∈ [(0, 0), (1, 0)], p.1 < Sample.animals.width ∧ p.2 < Sample.legs.width := by
    decide
  obtain ⟨t, ht, -, hheader, hrows, -⟩ := outerJoin_spec hl hr inRange
  exact ⟨hl, hr, inRange, t, ht, hheader, hrows.trans (by decide)⟩

end TableAlgebra.Algebra
