import TableAlgebra.Proofs.Algebra.Join

/-!
# The referential check

The check looks up each cell among those of the other table, and the outer join looks at each pair
of rows. On columns of one kind they find the same: a row is reported just if the outer join has to
fill it up with nulls. On columns of different kinds no cell is found, while the outer join leaves
the pair of columns out and finds every row.

* `rows_unreferencedRows`    the rows that are reported;
* `filter_right_origins`     the rows of an outer join that have nulls for the right table;
* `left_onlyLeft`            their left parts;
* `unreferencedRows_eq_nil_iff`   nothing is reported if the join has every row;
* `unreferenced_outerJoin`   the check beside the outer join.
-/

namespace TableAlgebra.Algebra

/-! ### Reported rows -/

theorem unreferenced_natCast {t r : Table} {c rc : Nat} (hc : c < t.width) (hrc : rc < r.width) :
    unreferenced t c r rc = .ok (unreferencedRows t c r rc) := by
  rw [unreferenced, Table.position_natCast hc, Table.position_natCast hrc]
  rfl

section
variable {t : Table} (ht : t.RowsConform) (c : Nat) (r : Table) (rc : Nat)
include ht

theorem rows_unreferencedRows :
    (unreferencedRows t c r rc).rows =
      t.rows.filter fun a => ∀ b ∈ r.rows, a.cell c ≠ b.cell rc := by
  rw [unreferencedRows, rows_keep ht]
  refine List.filter_congr fun a _ => ?_
  have hmem : (r.rows.map (·.cell rc)).contains (a.cell c) = true ↔
      ∃ b ∈ r.rows, b.cell rc = a.cell c := by
    rw [List.contains_iff_mem, List.mem_map]
  rw [Bool.eq_iff_iff, Bool.not_eq_true', ← Bool.not_eq_true, hmem, decide_eq_true_iff]
  simp only [not_exists, not_and, ne_eq, eq_comm]

theorem rows_unreferencedRows_eq_alone :
    (unreferencedRows t c r rc).rows =
      t.rows.filter fun a => !r.rows.any (agree [(c, rc)] a) := by
  rw [rows_unreferencedRows ht]
  refine List.filter_congr fun a _ => ?_
  rw [Bool.eq_iff_iff]
  simp [agree]

/-- Cells of different kinds are never equal. -/
theorem rows_unreferencedRows_of_kind_ne (hr : r.RowsConform) (hkind : t.kind c ≠ r.kind rc) :
    (unreferencedRows t c r rc).rows = t.rows := by
  rw [rows_unreferencedRows ht]
  refine List.filter_eq_self.mpr fun a ha => decide_eq_true fun b hb heq => hkind ?_
  rw [← ht.kind_eq ha c, ← hr.kind_eq hb rc, heq]

/-- Every cell is among those of its own column. -/
theorem rows_unreferencedRows_self : (unreferencedRows t c t c).rows = [] := by
  rw [rows_unreferencedRows ht]
  refine List.filter_eq_nil_iff.mpr fun a ha hnone => ?_
  exact of_decide_eq_true hnone a ha rfl

end

/-! ### Rows filled up with nulls -/

theorem outerJoin_integral {l r : Table} {ps : List (Nat × Nat)}
    (inRange : ∀ p ∈ ps, p.1 < l.width ∧ p.2 < r.width) :
    outerJoin l r (integral ps) = .ok (outerJoinOn l r (ps.filter (sameKind l r))) := by
  rw [outerJoin, integral, positionPairs_natCast inRange]
  rfl

theorem filter_right_origins (l r : Table) (pairs : List (Nat × Nat)) :
    (origins l r pairs).filter (fun o => o.right = none) = onlyLeft l r pairs := by
  have hjoined : (joined l r pairs).filter (fun o => o.right = none) = [] := by
    simp [joined, List.filter_map, Function.comp_def]
  have hleft : (onlyLeft l r pairs).filter (fun o => o.right = none) = onlyLeft l r pairs := by
    simp [onlyLeft, List.filter_map, Function.comp_def]
  have hright : (onlyRight l r pairs).filter (fun o => o.right = none) = [] := by
    simp [onlyRight, List.filter_map, Function.comp_def]
  rw [origins, List.filter_append, List.filter_append, hjoined, hleft, hright, List.append_nil]
  rfl

theorem left_onlyLeft (l r : Table) (pairs : List (Nat × Nat)) :
    (onlyLeft l r pairs).map (fun o => Origin.part l o.left) =
      l.rows.filter fun a => !r.rows.any (agree (pairs.filter (sameKind l r)) a) := by
  rw [onlyLeft, rows_unrelated l r (agree_filter_sameKind l r pairs), List.map_map]
  rfl

/-! ### Rows that a join loses -/

theorem mem_joinedRows {l r : Table} {ps : List (Nat × Nat)} {x : Row} :
    x ∈ joinedRows l r ps ↔ ∃ a ∈ l.rows, ∃ b ∈ r.rows, agree ps a b = true ∧ a ++ b = x := by
  simp only [joinedRows, List.mem_flatMap, List.mem_map, List.mem_filter, and_assoc]

theorem unreferencedRows_eq_nil_iff {t r : Table} (ht : t.RowsConform) (c rc : Nat) :
    (unreferencedRows t c r rc).rows = [] ↔
      ∀ a ∈ t.rows, ∃ x ∈ joinedRows t r [(c, rc)], x.take t.width = a := by
  rw [rows_unreferencedRows_eq_alone ht, List.filter_eq_nil_iff]
  constructor
  · intro h a ha
    have hfound := h a ha
    rw [Bool.not_eq_true', Bool.not_eq_false, List.any_eq_true] at hfound
    obtain ⟨b, hb, hagree⟩ := hfound
    exact ⟨a ++ b, mem_joinedRows.mpr ⟨a, ha, b, hb, hagree, rfl⟩, List.take_left' (ht.length_eq ha)⟩
  · intro h a ha
    obtain ⟨x, hx, htake⟩ := h a ha
    obtain ⟨a', ha', b, hb, hagree, rfl⟩ := mem_joinedRows.mp hx
    rw [List.take_left' (ht.length_eq ha')] at htake
    subst htake
    rw [Bool.not_eq_true', Bool.not_eq_false, List.any_eq_true]
    exact ⟨b, hb, hagree⟩

/-! ### The check beside the outer join -/

/-- The check reports the rows whose cell is not found. On columns of one kind they are the rows
that the outer join fills up with nulls, and there are none just if the join has every row; on
columns of different kinds they are all rows. A table refers to itself without a loose end. -/
theorem unreferenced_outerJoin {t r : Table} (ht : t.WellFormed) (hr : r.WellFormed) {c rc : Nat}
    (hc : c < t.width) (hrc : rc < r.width) :
    ∃ u, unreferenced t c r rc = .ok u ∧ u.schema = t.schema ∧ u.header = t.header ∧
      u.rows = t.rows.filter (fun a => ∀ b ∈ r.rows, a.cell c ≠ b.cell rc) ∧
      (t.kind c = r.kind rc → ∃ o j, outerJoin t r [((c : Int), (rc : Int))] = .ok o ∧
        join t r [((c : Int), (rc : Int))] = .ok j ∧
        o.rows = (origins t r [(c, rc)]).map (Origin.row t r) ∧
        u.rows = ((origins t r [(c, rc)]).filter fun x => x.right = none).map
          (fun x => Origin.part t x.left) ∧
        (u.rows = [] ↔ ∀ a ∈ t.rows, ∃ x ∈ j.rows, x.take t.width = a)) ∧
      (t.kind c ≠ r.kind rc → u.rows = t.rows) ∧
      ∃ v, unreferenced t c t c = .ok v ∧ v.rows = [] := by
  have inRange : ∀ p ∈ [(c, rc)], p.1 < t.width ∧ p.2 < r.width := by
    intro p hp
    rw [List.mem_singleton.mp hp]
    exact ⟨hc, hrc⟩
  refine ⟨_, unreferenced_natCast hc hrc, rfl, header_keep ht.header _,
    rows_unreferencedRows ht.rows c r rc, fun hkind => ?_,
    rows_unreferencedRows_of_kind_ne ht.rows c r rc hr.rows,
    _, unreferenced_natCast hc hc, rows_unreferencedRows_self ht.rows c⟩
  have hpair : [(c, rc)].filter (sameKind t r) = [(c, rc)] := by
    simp [sameKind, hkind]
  refine ⟨_, _, outerJoin_integral inRange, join_integral inRange,
    rows_outerJoinOn ht hr [(c, rc)], ?_, ?_⟩
  · rw [filter_right_origins, left_onlyLeft, hpair]
    exact rows_unreferencedRows_eq_alone ht.rows c r rc
  · rw [rows_joinOn ht.rows hr.rows, hpair]
    exact unreferencedRows_eq_nil_iff ht.rows c rc

/-- The null of the bee is among the legs, so the seven is the only loose end. No name is among the
legs. -/
theorem unreferenced_outerJoin_sample :
    Sample.animals.WellFormed ∧ Sample.legs.WellFormed ∧ 0 < Sample.animals.width ∧
      1 < Sample.animals.width ∧ 0 < Sample.legs.width ∧
      Sample.animals.kind 0 = Sample.legs.kind 0 ∧ Sample.animals.kind 1 ≠ Sample.legs.kind 0 ∧
      (∃ u, unreferenced Sample.animals 0 Sample.legs 0 = .ok u ∧
        u.rows = [[.numeric (some 7), .text none]] ∧
        u.rows = ((origins Sample.animals Sample.legs [(0, 0)]).filter fun x =>
          x.right = none).map fun x => Origin.part Sample.animals x.left) ∧
      ∃ u, unreferenced Sample.animals 1 Sample.legs 0 = .ok u ∧ u.rows = Sample.animals.rows := by
  have hl : Sample.animals.WellFormed := by decide
  have hr : Sample.legs.WellFormed := by decide
  have hzero : 0 < Sample.animals.width := by decide
  have hone : 1 < Sample.animals.width := by decide
  have hlegs : 0 < Sample.legs.width := by decide
  have hsame : Sample.animals.kind 0 = Sample.legs.kind 0 := rfl
  have hother : Sample.animals.kind 1 ≠ Sample.legs.kind 0 := by decide
  obtain ⟨u, hu, -, -, hrows, hpadded, -⟩ := unreferenced_outerJoin hl hr hzero hlegs
  obtain ⟨v, hv, -, -, -, -, hall, -⟩ := unreferenced_outerJoin hl hr hone hlegs
  obtain ⟨o, j, -, -, -, hleft, -⟩ := hpadded hsame
  exact ⟨hl, hr, hzero, hone, hlegs, hsame, hother, ⟨u, hu, hrows.trans (by decide), hleft⟩, v, hv,
    hall hother⟩

end TableAlgebra.Algebra
