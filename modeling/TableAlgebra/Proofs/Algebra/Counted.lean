import Mathlib.Algebra.BigOperators.Finprod
import TableAlgebra.Algebra.Project
import TableAlgebra.Proofs.Algebra.Reference
import TableAlgebra.Proofs.Algebra.Swapped

/-!
# How many rows a join has

Two rows agree if they have the same key, that is the same cells in the columns that are paired. So
every row of one table meets as many rows of the other as have its key there, and the rows of a join
are counted key by key.

* `multiplicity`           how many rows of a table have a key;
* `agree_eq_pick`          rows agree if they have the same key;
* `sum_map_eq_finsum`      a sum over a list, element by element of it;
* `length_joinedRows`      the rows of a join, key by key;
* `diagonal`               each column paired with itself;
* `outerJoinOn_self`       a table beside itself leaves no row alone;
* `length_join`            joins of two tables and of a table with itself.
-/

namespace TableAlgebra.Algebra

open Table (RowsConform)

/-! ### Keys -/

def multiplicity (t : Table) (cs : List Nat) (key : List Cell) : Nat :=
  t.rows.countP fun a => pick cs a = key

theorem multiplicity_eq_countP (t : Table) (cs : List Nat) (key : List Cell) :
    multiplicity t cs key = (t.rows.map (pick cs)).countP (· = key) := by
  rw [List.countP_map]
  rfl

theorem agree_eq_pick (ps : List (Nat × Nat)) (a b : Row) :
    agree ps a b = decide (pick (ps.map Prod.snd) b = pick (ps.map Prod.fst) a) := by
  induction ps with
  | nil => rfl
  | cons p ps ih =>
    rw [agree_cons, ih, ← Bool.decide_and]
    simp only [pick, List.map_cons, List.cons.injEq, eq_comm]

/-! ### Sums over keys -/

/-- A sum over a list is a sum over all possible elements, each as often as it is in the list. -/
theorem sum_map_eq_finsum {α : Type} [DecidableEq α] (xs : List α) (f : α → Nat) :
    (xs.map f).sum = ∑ᶠ x, xs.countP (· = x) * f x := by
  have hcount : ∀ x, xs.countP (· = x) = xs.count x := fun x =>
    (List.countP_congr fun y _ => by rw [decide_eq_true_iff, beq_iff_eq]).trans
      List.count_eq_countP.symm
  have hsupport : (Function.support fun x => xs.countP (· = x) * f x) ⊆ xs.toFinset := by
    intro x hx
    have hne : xs.countP (· = x) ≠ 0 := left_ne_zero_of_mul hx
    rw [hcount] at hne
    exact List.mem_toFinset.mpr (List.count_pos_iff.mp (Nat.pos_of_ne_zero hne))
  rw [finsum_eq_sum_of_support_subset _ hsupport, Finset.sum_list_map_count]
  exact Finset.sum_congr rfl fun x _ => by rw [smul_eq_mul, hcount]

theorem length_joinedRows (l r : Table) (ps : List (Nat × Nat)) :
    (joinedRows l r ps).length =
      ∑ᶠ key, multiplicity l (ps.map Prod.fst) key * multiplicity r (ps.map Prod.snd) key := by
  have hrow : ∀ a ∈ l.rows, ((r.rows.filter (agree ps a)).map (a ++ ·)).length =
      multiplicity r (ps.map Prod.snd) (pick (ps.map Prod.fst) a) := by
    intro a _
    rw [List.length_map, ← List.countP_eq_length_filter, multiplicity]
    exact List.countP_congr fun b _ => by rw [agree_eq_pick]
  calc (joinedRows l r ps).length
      = (l.rows.map fun a => multiplicity r (ps.map Prod.snd) (pick (ps.map Prod.fst) a)).sum := by
        rw [joinedRows, List.length_flatMap, List.map_congr_left hrow]
    _ = ((l.rows.map (pick (ps.map Prod.fst))).map (multiplicity r (ps.map Prod.snd))).sum := by
        rw [List.map_map]
        rfl
    _ = _ := by
        rw [sum_map_eq_finsum]
        exact finsum_congr fun key => by rw [multiplicity_eq_countP l]

/-! ### A table beside itself -/

/-- Each column of a list, paired with itself. -/
def diagonal (cs : List Nat) : List (Nat × Nat) := cs.map fun c => (c, c)

theorem map_fst_diagonal (cs : List Nat) : (diagonal cs).map Prod.fst = cs := by
  rw [diagonal, List.map_map]
  exact List.map_id cs

theorem map_snd_diagonal (cs : List Nat) : (diagonal cs).map Prod.snd = cs := by
  rw [diagonal, List.map_map]
  exact List.map_id cs

theorem agree_diagonal (cs : List Nat) (a : Row) : agree (diagonal cs) a a = true := by
  rw [agree_eq_pick, map_fst_diagonal, map_snd_diagonal]
  exact decide_eq_true rfl

theorem filter_sameKind_diagonal (t : Table) (cs : List Nat) :
    (diagonal cs).filter (sameKind t t) = diagonal cs := by
  refine List.filter_eq_self.mpr fun p hp => ?_
  obtain ⟨c, -, rfl⟩ := List.mem_map.mp hp
  exact decide_eq_true rfl

/-- No row is alone if each meets itself. -/
theorem filter_not_any_self {α : Type} {p : α → α → Bool} (h : ∀ a, p a a = true) (xs : List α) :
    (xs.filter fun a => !xs.any (p a)) = [] := by
  refine List.filter_eq_nil_iff.mpr fun a ha => ?_
  rw [List.any_eq_true.mpr ⟨a, ha, h a⟩]
  exact Bool.false_ne_true

section
variable (t : Table) (cs : List Nat)

theorem append_self_mem_joinedRows {a : Row} (ha : a ∈ t.rows) :
    a ++ a ∈ joinedRows t t (diagonal cs) :=
  mem_joinedRows.mpr ⟨a, ha, a, ha, agree_diagonal cs a, rfl⟩

/-- Each row meets itself at least. -/
theorem length_le_joinedRows : t.rows.length ≤ (joinedRows t t (diagonal cs)).length := by
  rw [joinedRows, List.length_flatMap]
  refine (List.length_map _).symm.le.trans (List.length_le_sum_of_one_le _ fun n hn => ?_)
  obtain ⟨a, ha, rfl⟩ := List.mem_map.mp hn
  rw [List.length_map]
  exact List.length_pos_of_mem (List.mem_filter.mpr ⟨ha, agree_diagonal cs a⟩)

theorem outerJoinOn_self (h : t.rows ≠ []) :
    outerJoinOn t t (diagonal cs) = joinOn t t (diagonal cs) := by
  rw [outerJoinOn, leftAlone, rightAlone, filter_not_any_self (agree_diagonal cs),
    filter_not_any_self (p := fun a b => agree (diagonal cs) b a) (agree_diagonal cs),
    List.map_nil, List.map_nil, List.append_nil, List.append_nil, joinOn_of_rows h h]

end

/-! ### Joins, counted -/

/-- A join on columns of the same kinds has, for each key, as many rows as there are pairs of rows
that have it. So a table joined with itself has the square of each multiplicity, each row beside
itself among them, and an outer join finds no row to add. -/
theorem length_join {l r : Table} (hl : l.RowsConform) (hr : r.RowsConform) :
    (∀ ps : List (Nat × Nat),
      (∀ p ∈ ps, (p.1 < l.width ∧ p.2 < r.width) ∧ l.kind p.1 = r.kind p.2) →
        ∃ t, join l r (integral ps) = .ok t ∧ t.rows.length =
          ∑ᶠ key, multiplicity l (ps.map Prod.fst) key * multiplicity r (ps.map Prod.snd) key) ∧
    ∀ cs : List Nat, (∀ c ∈ cs, c < l.width) →
      ∃ t, join l l (integral (diagonal cs)) = .ok t ∧ (∀ a ∈ l.rows, a ++ a ∈ t.rows) ∧
        t.rows.length = ∑ᶠ key, multiplicity l cs key ^ 2 ∧ l.rows.length ≤ t.rows.length ∧
        (l.rows ≠ [] → outerJoin l l (integral (diagonal cs)) = .ok t) := by
  constructor
  · intro ps hps
    have hkinds : ps.filter (sameKind l r) = ps :=
      List.filter_eq_self.mpr fun p hp => decide_eq_true (hps p hp).2
    refine ⟨_, join_integral fun p hp => (hps p hp).1, ?_⟩
    rw [rows_joinOn hl hr, hkinds, length_joinedRows]
  · intro cs hcs
    have inRange : ∀ p ∈ diagonal cs, p.1 < l.width ∧ p.2 < l.width := by
      intro p hp
      obtain ⟨c, hc, rfl⟩ := List.mem_map.mp hp
      exact ⟨hcs c hc, hcs c hc⟩
    have hrows : (joinOn l l ((diagonal cs).filter (sameKind l l))).rows =
        joinedRows l l (diagonal cs) := by
      rw [rows_joinOn hl hl, filter_sameKind_diagonal]
    refine ⟨_, join_integral inRange, fun a ha => ?_, ?_, ?_, fun hne => ?_⟩
    · rw [hrows]
      exact append_self_mem_joinedRows l cs ha
    · rw [hrows, length_joinedRows, map_fst_diagonal, map_snd_diagonal]
      simp only [sq]
    · rw [hrows]
      exact length_le_joinedRows l cs
    · rw [outerJoin_integral inRange, filter_sameKind_diagonal, outerJoinOn_self l cs hne]

/-- Two ants of one number and a null that meets a null. By their names the animals meet four, one
and one times. -/
theorem length_join_sample :
    Sample.animals.RowsConform ∧ Sample.legs.RowsConform ∧
      (∀ p ∈ [(0, 0)], (p.1 < Sample.animals.width ∧ p.2 < Sample.legs.width) ∧
        Sample.animals.kind p.1 = Sample.legs.kind p.2) ∧
      (∀ c ∈ [1], c < Sample.animals.width) ∧ Sample.animals.rows ≠ [] ∧
      ∑ᶠ key, multiplicity Sample.animals [0] key * multiplicity Sample.legs [0] key = 3 ∧
      multiplicity Sample.animals [1] [.text (some "ant")] = 2 ∧
      ∑ᶠ key, multiplicity Sample.animals [1] key ^ 2 = 6 ∧
      ∃ t, join Sample.animals Sample.animals [(1, 1)] = .ok t ∧
        outerJoin Sample.animals Sample.animals [(1, 1)] = .ok t := by
  have hl : Sample.animals.RowsConform := by decide
  have hr : Sample.legs.RowsConform := by decide
  have hps : ∀ p ∈ [(0, 0)], (p.1 < Sample.animals.width ∧ p.2 < Sample.legs.width) ∧
      Sample.animals.kind p.1 = Sample.legs.kind p.2 := by decide
  have hcs : ∀ c ∈ [1], c < Sample.animals.width := by decide
  have hne : Sample.animals.rows ≠ [] := by decide
  obtain ⟨t, ht, hsum⟩ := (length_join hl hr).1 [(0, 0)] hps
  obtain ⟨u, hu, -, hsquares, -, houter⟩ := (length_join hl hr).2 [1] hcs
  have hthree : t.rows.length = 3 := map_eq_of_ok ht (f := fun t => t.rows.length) (by decide)
  have hsix : u.rows.length = 6 := map_eq_of_ok hu (f := fun t => t.rows.length) (by decide)
  exact ⟨hl, hr, hps, hcs, hne, hsum.symm.trans hthree, by decide, hsquares.symm.trans hsix, u, hu,
    houter hne⟩

end TableAlgebra.Algebra
