import Mathlib.Data.List.Perm.Basic
import Mathlib.Data.Prod.Basic
import TableAlgebra.Proofs.Algebra.Join

/-!
# Joins the other way round

When two tables change places in a join, the rows come in another order and their two parts change
places. Nothing else changes: the same pairs of rows agree, each as often as before, and the rows
that agree with nothing are the same ones.

* `flatMap_filter_swap`      two nested loops over related pairs, whichever is the outer one;
* `turned`                   a row whose first cells are moved behind the rest;
* `joinOf`                   the plain join or the outer one;
* `perm_joinOf_swap`         either of them the other way round;
* `mem_namePairs`            which columns a natural join pairs;
* `join_comm`                joins, outer joins and natural joins the other way round.
-/

namespace TableAlgebra.Algebra

/-! ### Nested loops -/

theorem flatMap_ite_singleton {α β : Type} (p : α → Bool) (f : α → β) (xs : List α) :
    (xs.flatMap fun a => if p a then [f a] else []) = (xs.filter p).map f := by
  induction xs with
  | nil => rfl
  | cons a xs ih =>
    rw [List.flatMap_cons, List.filter_cons, ih]
    split <;> rfl

/-- The related pairs of two lists are the same, up to their order, whichever list runs faster. -/
theorem flatMap_filter_swap {α β γ : Type} (p : α → β → Bool) (f : α → β → γ) (xs : List α)
    (ys : List β) :
    (ys.flatMap fun b => (xs.filter (p · b)).map (f · b)).Perm
      (xs.flatMap fun a => (ys.filter (p a)).map (f a)) := by
  induction xs with
  | nil => simp
  | cons a xs ih =>
    have hturn : ∀ b, ((a :: xs).filter (p · b)).map (f · b) =
        (if p a b then [f a b] else []) ++ (xs.filter (p · b)).map (f · b) := by
      intro b
      rw [List.filter_cons]
      split <;> rfl
    rw [List.flatMap_cons, ← flatMap_ite_singleton (p a) (f a)]
    simp only [hturn]
    exact (List.flatMap_append_perm ys _ _).symm.trans (ih.append_left _)

/-! ### Rows and pairs of columns -/

/-- The row with its first cells, as many as given, moved behind the rest. -/
def turned (w : Nat) (x : Row) : Row := x.drop w ++ x.take w

theorem turned_append {a : Row} {w : Nat} (h : a.length = w) (b : Row) :
    turned w (a ++ b) = b ++ a := by
  rw [turned, List.drop_left' h, List.take_left' h]

theorem agree_swap (ps : List (Nat × Nat)) (b : Row) :
    agree (ps.map Prod.swap) b = fun a => agree ps a b := by
  funext a
  induction ps with
  | nil => rfl
  | cons p ps ih =>
    rw [List.map_cons, agree_cons, agree_cons, ih]
    simp only [Prod.fst_swap, Prod.snd_swap, eq_comm]

/-- Only which pairs there are counts, not their order or how often they come. -/
theorem agree_of_mem_iff {ps qs : List (Nat × Nat)} (h : ∀ p, p ∈ ps ↔ p ∈ qs) :
    agree ps = agree qs := by
  funext a b
  rw [Bool.eq_iff_iff, agree, agree, List.all_eq_true, List.all_eq_true]
  exact forall_congr' fun p => imp_congr_left (h p)

theorem filter_sameKind_swap (l r : Table) (ps : List (Nat × Nat)) :
    (ps.map Prod.swap).filter (sameKind r l) = (ps.filter (sameKind l r)).map Prod.swap := by
  have hkind : sameKind r l ∘ Prod.swap = sameKind l r := by
    funext p
    simp only [Function.comp_apply, sameKind, Prod.fst_swap, Prod.snd_swap, eq_comm]
  rw [List.filter_map, hkind]

/-! ### The blocks of rows -/

section
variable {l r : Table} (hr : r.RowsConform) (ps : List (Nat × Nat))
include hr

theorem perm_joinedRows_swap :
    ((joinedRows r l (ps.map Prod.swap)).map (turned r.width)).Perm (joinedRows l r ps) := by
  have hrow : ∀ b ∈ r.rows, ((l.rows.filter (agree (ps.map Prod.swap) b)).map (b ++ ·)).map
      (turned r.width) = (l.rows.filter (agree ps · b)).map (· ++ b) := by
    intro b hb
    rw [List.map_map]
    simp only [agree_swap, Function.comp_def, turned_append (hr.length_eq hb)]
  rw [joinedRows, List.map_flatMap, List.flatMap_congr hrow]
  exact flatMap_filter_swap (agree ps) (· ++ ·) l.rows r.rows

theorem leftAlone_swap :
    (leftAlone r l (ps.map Prod.swap)).map (turned r.width) = rightAlone l r ps := by
  rw [leftAlone, rightAlone, List.map_map]
  simp only [agree_swap]
  refine List.map_congr_left fun b hb => ?_
  exact turned_append (hr.length_eq (List.mem_filter.mp hb).1) _

omit hr in
theorem rightAlone_swap :
    (rightAlone r l (ps.map Prod.swap)).map (turned r.width) = leftAlone l r ps := by
  have hnulls : (Row.nulls r.schema).length = r.width := List.length_map ..
  rw [leftAlone, rightAlone, List.map_map]
  simp only [agree_swap, Function.comp_def, turned_append hnulls]

end

/-! ### Plain and outer joins -/

def joinOf (outer : Bool) (l r : Table) (ps : List (Nat × Nat)) : Table :=
  if outer then outerJoinOn l r ps else joinOn l r ps

theorem joinOf_of_mem_iff {ps qs : List (Nat × Nat)} (h : ∀ p, p ∈ ps ↔ p ∈ qs) (outer : Bool)
    (l r : Table) : joinOf outer l r ps = joinOf outer l r qs := by
  simp only [joinOf, joinOn, outerJoinOn, joinedRows, leftAlone, rightAlone, agree_of_mem_iff h]

section
variable {l r : Table} (hl : l.RowsConform) (hr : r.RowsConform)
include hl hr

theorem rows_outerJoinOn_eq_append (ps : List (Nat × Nat)) :
    (outerJoinOn l r ps).rows = joinedRows l r ps ++ leftAlone l r ps ++ rightAlone l r ps := by
  rw [outerJoinOn_eq_gather hl hr]
  rfl

theorem perm_joinOf_swap (outer : Bool) (ps : List (Nat × Nat)) :
    ((joinOf outer r l (ps.map Prod.swap)).rows.map (turned r.width)).Perm
      (joinOf outer l r ps).rows := by
  have hjoined := perm_joinedRows_swap (l := l) hr ps
  cases outer with
  | false =>
    show ((joinOn r l _).rows.map _).Perm (joinOn l r ps).rows
    rw [rows_joinOn hr hl, rows_joinOn hl hr]
    exact hjoined
  | true =>
    show ((outerJoinOn r l _).rows.map _).Perm (outerJoinOn l r ps).rows
    rw [rows_outerJoinOn_eq_append hr hl, rows_outerJoinOn_eq_append hl hr, List.map_append,
      List.map_append, leftAlone_swap hr, rightAlone_swap, List.append_assoc, List.append_assoc]
    exact hjoined.append List.perm_append_comm

end

/-! ### Natural joins -/

theorem mem_namePairs {l r : Table} {i j : Nat} :
    (i, j) ∈ namePairs l r ↔ ∃ name, l.header[i]? = some name ∧ r.header[j]? = some name := by
  simp only [namePairs, List.mem_flatMap, List.mem_filterMap, Option.ite_none_right_eq_some,
    Prod.exists, List.mem_zipIdx_iff_getElem?, Option.some.injEq, Prod.mk.injEq]
  constructor
  · rintro ⟨m, i', hm, n, j', hn, rfl, rfl, rfl⟩
    exact ⟨m, hm, hn⟩
  · rintro ⟨m, hm, hn⟩
    exact ⟨m, i, hm, m, j, hn, rfl, rfl, rfl⟩

theorem mem_namePairs_swap {l r : Table} (p : Nat × Nat) :
    p ∈ namePairs r l ↔ p ∈ (namePairs l r).map Prod.swap := by
  obtain ⟨j, i⟩ := p
  have hswap : (j, i) ∈ (namePairs l r).map Prod.swap ↔ (i, j) ∈ namePairs l r :=
    List.mem_map_of_injective (f := Prod.swap) Prod.swap_injective (a := (i, j))
  rw [hswap, mem_namePairs, mem_namePairs]
  exact exists_congr fun _ => and_comm

/-- A name of a table stands for a column. -/
theorem lt_width_of_getElem? {t : Table} (h : t.HeaderFits) {i : Nat} {name : Text}
    (hname : t.header[i]? = some name) : i < t.width := by
  have hi : i < t.header.length := (List.getElem?_eq_some_iff.mp hname).1
  rcases h with h | h
  · rw [h] at hi
    exact absurd hi (Nat.not_lt_zero i)
  · rwa [h] at hi

theorem inRange_namePairs {l r : Table} (hl : l.HeaderFits) (hr : r.HeaderFits) :
    ∀ p ∈ namePairs l r, p.1 < l.width ∧ p.2 < r.width := by
  intro p hp
  obtain ⟨name, hleft, hright⟩ := mem_namePairs.mp hp
  exact ⟨lt_width_of_getElem? hl hleft, lt_width_of_getElem? hr hright⟩

theorem naturalJoin_of_nil {l r : Table} (h : namePairs l r = []) (outer : Bool) :
    naturalJoin l r outer = .ok (.empty []) := by
  simp [naturalJoin, h]

theorem naturalJoin_of_ne_nil {l r : Table} (h : namePairs l r ≠ []) (outer : Bool) :
    naturalJoin l r outer = (positionPairs l r (integral (namePairs l r))).map fun ps =>
      joinOf outer l r (ps.filter (sameKind l r)) := by
  have hsome : ((namePairs l r).map fun p => ((p.1 : Int), (p.2 : Int))).isEmpty = false := by
    simp [h]
  rw [naturalJoin, hsome]
  cases outer <;> rfl

theorem naturalJoin_of_inRange {l r : Table} (h : namePairs l r ≠ [])
    (inRange : ∀ p ∈ namePairs l r, p.1 < l.width ∧ p.2 < r.width) (outer : Bool) :
    naturalJoin l r outer = .ok (joinOf outer l r ((namePairs l r).filter (sameKind l r))) := by
  rw [naturalJoin_of_ne_nil h, integral, positionPairs_natCast inRange]
  rfl

theorem inRange_of_naturalJoin {l r t : Table} (h : namePairs l r ≠ []) {outer : Bool}
    (ht : naturalJoin l r outer = .ok t) :
    ∀ p ∈ namePairs l r, p.1 < l.width ∧ p.2 < r.width := by
  rw [naturalJoin_of_ne_nil h] at ht
  obtain ⟨ps, hps, -⟩ := map_eq_ok.mp ht
  intro p hp
  have hrange := inRange_of_positionPairs hps (p.1, p.2) (List.mem_map_of_mem hp)
  unfold InRange at hrange
  omega

/-! ### The other way round -/

/-- Both joins are answered, and the rows of the second, with their first cells moved behind the
rest, are those of the first in some order. -/
def Mirrors (w : Nat) (x y : Except Error Table) : Prop :=
  ∃ t u, x = .ok t ∧ y = .ok u ∧ (u.rows.map (turned w)).Perm t.rows

section
variable {l r : Table} (hl : l.RowsConform) (hr : r.RowsConform)
include hl hr

theorem mirrors_of_inRange (outer : Bool) {pairs : List (Int × Int)}
    (inRange : ∀ p ∈ pairs, InRange l r p) :
    Mirrors r.width
      ((positionPairs l r pairs).map fun ps => joinOf outer l r (ps.filter (sameKind l r)))
      ((positionPairs r l (pairs.map Prod.swap)).map fun ps =>
        joinOf outer r l (ps.filter (sameKind r l))) := by
  have hswapped : ∀ p ∈ pairs.map Prod.swap, InRange r l p := by
    intro p hp
    obtain ⟨q, hq, rfl⟩ := List.mem_map.mp hp
    exact (inRange q hq).symm
  have hmap : (pairs.map Prod.swap).map (fun p => (p.1.toNat, p.2.toNat)) =
      (pairs.map fun p => (p.1.toNat, p.2.toNat)).map Prod.swap := by
    rw [List.map_map, List.map_map]
    rfl
  rw [positionPairs_of_inRange inRange, positionPairs_of_inRange hswapped, hmap]
  refine ⟨_, _, rfl, rfl, ?_⟩
  dsimp only
  rw [filter_sameKind_swap]
  exact perm_joinOf_swap hl hr outer _

theorem mirrors_naturalJoin {outer : Bool} {t : Table} (ht : naturalJoin l r outer = .ok t) :
    Mirrors r.width (naturalJoin l r outer) (naturalJoin r l outer) := by
  by_cases h : namePairs l r = []
  · have hswapped : namePairs r l = [] := by
      refine List.eq_nil_iff_forall_not_mem.mpr fun p hp => ?_
      rw [mem_namePairs_swap, h] at hp
      cases hp
    rw [naturalJoin_of_nil h, naturalJoin_of_nil hswapped]
    exact ⟨_, _, rfl, rfl, .refl _⟩
  · have inRange := inRange_of_naturalJoin h ht
    have hswapped : namePairs r l ≠ [] := by
      obtain ⟨p, hp⟩ := List.exists_mem_of_ne_nil _ h
      exact List.ne_nil_of_mem (mem_namePairs_swap p.swap |>.mpr (List.mem_map_of_mem hp))
    have inRange' : ∀ p ∈ namePairs r l, p.1 < r.width ∧ p.2 < l.width := by
      intro p hp
      obtain ⟨q, hq, rfl⟩ := List.mem_map.mp (mem_namePairs_swap p |>.mp hp)
      exact (inRange q hq).symm
    have hpairs : ∀ p, p ∈ (namePairs r l).filter (sameKind r l) ↔
        p ∈ ((namePairs l r).filter (sameKind l r)).map Prod.swap := by
      intro p
      rw [← filter_sameKind_swap, List.mem_filter, List.mem_filter, mem_namePairs_swap]
    rw [naturalJoin_of_inRange h inRange, naturalJoin_of_inRange hswapped inRange',
      joinOf_of_mem_iff hpairs]
    exact ⟨_, _, rfl, rfl, perm_joinOf_swap hl hr outer _⟩

/-- A join and an outer join the other way round have the same rows up to their order and that of
their parts. So has a natural join, which is answered whenever each header is absent or as wide as
its table. -/
theorem join_comm :
    (∀ pairs : List (Int × Int), (∀ p ∈ pairs, InRange l r p) →
      Mirrors r.width (join l r pairs) (join r l (pairs.map Prod.swap)) ∧
      Mirrors r.width (outerJoin l r pairs) (outerJoin r l (pairs.map Prod.swap))) ∧
    (∀ outer t, naturalJoin l r outer = .ok t →
      Mirrors r.width (naturalJoin l r outer) (naturalJoin r l outer)) ∧
    (l.HeaderFits → r.HeaderFits → ∀ outer, ∃ t, naturalJoin l r outer = .ok t) := by
  refine ⟨fun pairs inRange => ⟨?_, ?_⟩, fun outer t ht => mirrors_naturalJoin hl hr ht,
    fun hlh hrh outer => ?_⟩
  · exact mirrors_of_inRange hl hr false inRange
  · exact mirrors_of_inRange hl hr true inRange
  · by_cases h : namePairs l r = []
    · exact ⟨_, naturalJoin_of_nil h outer⟩
    · exact ⟨_, naturalJoin_of_inRange h (inRange_namePairs hlh hrh) outer⟩

end

/-! ### Repeated names -/

namespace Sample

def pets : Table :=
  { schema := [.text, .numeric, .text], header := ["name", "age", "name"],
    rows := [[.text (some "ant"), .numeric (some 1), .text (some "ant")],
      [.text (some "bee"), .numeric (some 2), .text (some "bee")],
      [.text (some "bee"), .numeric (some 2), .text (some "bee")],
      [.text (some "bee"), .numeric none, .text (some "cat")]] }

end Sample

/-- Both columns of names have to agree. The bee comes first in the one join and the ant in the
other, and the cat is alone. -/
theorem join_comm_sample :
    Sample.pets.RowsConform ∧ Sample.sounds.RowsConform ∧ Sample.pets.HeaderFits ∧
      Sample.sounds.HeaderFits ∧
      (∀ p ∈ [((2 : Int), (0 : Int))], InRange Sample.pets Sample.sounds p) ∧
      Mirrors 2 (join Sample.pets Sample.sounds [(2, 0)]) (join Sample.sounds Sample.pets [(0, 2)]) ∧
      ∃ t u, naturalJoin Sample.pets Sample.sounds true = .ok t ∧
        naturalJoin Sample.sounds Sample.pets true = .ok u ∧
        (u.rows.map (turned 2)).Perm t.rows ∧
        t.rows.map (·.cell 3) =
          [.text (some "ant"), .text (some "bee"), .text (some "bee"), .text none] ∧
        u.rows.map (·.cell 0) =
          [.text (some "bee"), .text (some "bee"), .text (some "ant"), .text none] := by
  have hl : Sample.pets.RowsConform := by decide
  have hr : Sample.sounds.RowsConform := by decide
  have hlh : Sample.pets.HeaderFits := by decide
  have hrh : Sample.sounds.HeaderFits := by decide
  have inRange : ∀ p ∈ [((2 : Int), (0 : Int))], InRange Sample.pets Sample.sounds p := by decide
  obtain ⟨hjoins, hnatural, hanswer⟩ := join_comm hl hr
  obtain ⟨t, ht⟩ := hanswer hlh hrh true
  obtain ⟨t, u, ht, hu, hperm⟩ := hnatural true t ht
  exact ⟨hl, hr, hlh, hrh, inRange, (hjoins _ inRange).1, t, u, ht, hu, hperm,
    map_eq_of_ok ht (f := fun t => t.rows.map (·.cell 3)) (by decide),
    map_eq_of_ok hu (f := fun u => u.rows.map (·.cell 0)) (by decide)⟩

end TableAlgebra.Algebra
