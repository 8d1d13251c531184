import TableAlgebra.Proofs.Algebra.Product

/-!
# Joins as filtered products

A join has the rows of the product whose cells agree in the pairs of columns. Which rows are taken
and in which order they come are two things apart, so joins of three tables are associative because
products are: however they are nested, all pairs of columns test the same row of all three.

* `shift`                    a pair of columns that others have been put before;
* `joinedRows_eq_filter`     the rows of a join among those of the product;
* `join_eq_filter_product`   when a join is refused, and what it is otherwise;
* `join_assoc`               joins of three tables.
-/

namespace TableAlgebra.Algebra

open Text.Numeral (bound maxDigits)

/-! ### Columns of rows side by side -/

theorem cell_append_left {a : Row} {i : Nat} (h : i < a.length) (b : Row) :
    Row.cell (a ++ b) i = a.cell i := List.getD_append _ _ _ _ h

theorem cell_append_right (a b : Row) (i : Nat) : Row.cell (a ++ b) (a.length + i) = b.cell i := by
  rw [Row.cell, List.getD_append_right _ _ _ _ (Nat.le_add_right ..), Nat.add_sub_cancel_left]
  rfl

/-- The pair of columns, when others are put before those of either table. -/
def shift (v w : Nat) (p : Nat × Nat) : Nat × Nat := (v + p.1, w + p.2)

theorem map_shift_map_shift (v w v' w' : Nat) (ps : List (Nat × Nat)) :
    (ps.map (shift v' w')).map (shift v w) = ps.map (shift (v + v') (w + w')) := by
  rw [List.map_map]
  refine List.map_congr_left fun p _ => ?_
  simp only [Function.comp_apply, shift, Nat.add_assoc]

theorem agree_congr {ps : List (Nat × Nat)} {a b a' b' : Row}
    (hl : ∀ p ∈ ps, a.cell p.1 = a'.cell p.1) (hr : ∀ p ∈ ps, b.cell p.2 = b'.cell p.2) :
    agree ps a b = agree ps a' b' := by
  induction ps with
  | nil => rfl
  | cons p ps ih =>
    rw [agree_cons, agree_cons, hl p List.mem_cons_self, hr p List.mem_cons_self,
      ih (fun q hq => hl q (List.mem_cons_of_mem p hq)) fun q hq => hr q (List.mem_cons_of_mem p hq)]

theorem agree_map_shift {v w : Nat} {ps : List (Nat × Nat)} {a b a' b' : Row}
    (hl : ∀ p ∈ ps, a.cell (v + p.1) = a'.cell p.1) (hr : ∀ p ∈ ps, b.cell (w + p.2) = b'.cell p.2) :
    agree (ps.map (shift v w)) a b = agree ps a' b' := by
  induction ps with
  | nil => rfl
  | cons p ps ih =>
    rw [List.map_cons, agree_cons, agree_cons,
      ih (fun q hq => hl q (List.mem_cons_of_mem p hq)) fun q hq => hr q (List.mem_cons_of_mem p hq)]
    simp only [shift, hl p List.mem_cons_self, hr p List.mem_cons_self]

/-- The row has equal cells in pairs of columns of two tables, the left one of the given width. -/
def agreeAcross (w : Nat) (ps : List (Nat × Nat)) (x : Row) : Bool :=
  agree (ps.map (shift 0 w)) x x

theorem agreeAcross_append (a b : Row) {ps : List (Nat × Nat)} (h : ∀ p ∈ ps, p.1 < a.length) :
    agreeAcross a.length ps (a ++ b) = agree ps a b := by
  refine agree_map_shift (fun p hp => ?_) fun p _ => cell_append_right a b p.2
  rw [Nat.zero_add]
  exact cell_append_left (h p hp) b

/-! ### The rows of a join -/

theorem joinedRows_eq_filter {l : Table} (hl : l.RowsConform) (r : Table) {ps : List (Nat × Nat)}
    (hps : ∀ p ∈ ps, p.1 < l.width) :
    joinedRows l r ps = (beside l.rows r.rows).filter (agreeAcross l.width ps) := by
  have hrow : ∀ a ∈ l.rows, (r.rows.filter (agree ps a)).map (a ++ ·) =
      (r.rows.map (a ++ ·)).filter (agreeAcross l.width ps) := by
    intro a ha
    have hlength : a.length = l.width := Row.length_of_conforms (hl a ha)
    rw [List.filter_map]
    refine congrArg _ (List.filter_congr fun b _ => ?_)
    rw [← hlength] at hps ⊢
    exact (agreeAcross_append a b hps).symm
  rw [joinedRows, beside, List.filter_flatMap]
  exact List.flatMap_congr hrow

theorem joinedRows_of_nil {l r : Table} (h : l.rows = [] ∨ r.rows = []) (ps : List (Nat × Nat)) :
    joinedRows l r ps = [] := by
  rcases h with h | h <;> simp [joinedRows, h]

section
variable {l r : Table}

theorem joinOn_of_nil (h : l.rows = [] ∨ r.rows = []) (ps : List (Nat × Nat)) :
    joinOn l r ps = .empty [] := by
  have hempty : (l.rows.isEmpty || r.rows.isEmpty) = true := by
    rcases h with h | h <;> simp [h]
  rw [joinOn, hempty]
  rfl

theorem joinOn_of_rows (hl : l.rows ≠ []) (hr : r.rows ≠ []) (ps : List (Nat × Nat)) :
    joinOn l r ps = combined l r (joinedRows l r ps) := by
  have hsome : (l.rows.isEmpty || r.rows.isEmpty) = false := by simp [hl, hr]
  rw [joinOn, hsome]
  rfl

theorem rows_joinOn (hl : l.RowsConform) (hr : r.RowsConform) (ps : List (Nat × Nat)) :
    (joinOn l r ps).rows = joinedRows l r ps := by
  by_cases h : l.rows = [] ∨ r.rows = []
  · rw [joinOn_of_nil h, joinedRows_of_nil h]
    rfl
  · obtain ⟨hln, hrn⟩ := not_or.mp h
    rw [joinOn_of_rows hln hrn]
    exact rows_combined fun x hx => conforms_of_mem_joinedRows hl hr hx

end

/-! ### Pairs that name no column -/

/-- The pair names a column of either table. -/
def InRange (l r : Table) (p : Int × Int) : Prop :=
  (0 ≤ p.1 ∧ p.1 < l.width) ∧ 0 ≤ p.2 ∧ p.2 < r.width

instance (l r : Table) (p : Int × Int) : Decidable (InRange l r p) :=
  inferInstanceAs (Decidable (_ ∧ _))

section
variable {l r : Table} {pairs : List (Int × Int)}

theorem positionPair_eq_ok {p : Int × Int} {q : Nat × Nat} :
    positionPair l r p = .ok q ↔ InRange l r p ∧ q = (p.1.toNat, p.2.toNat) := by
  have hpair : positionPair l r p = .ok q ↔ l.position p.1 = .ok q.1 ∧ r.position p.2 = .ok q.2 := by
    rw [positionPair, bind_eq_ok]
    constructor
    · rintro ⟨c, hc, h⟩
      obtain ⟨d, hd, h⟩ := bind_eq_ok.mp h
      cases h
      exact ⟨hc, hd⟩
    · rintro ⟨hc, hd⟩
      exact ⟨q.1, hc, bind_eq_ok.mpr ⟨q.2, hd, rfl⟩⟩
  rw [hpair, Table.position_eq_ok, Table.position_eq_ok, InRange, Prod.ext_iff]
  omega

theorem positionPairs_of_inRange (h : ∀ p ∈ pairs, InRange l r p) :
    positionPairs l r pairs = .ok (pairs.map fun p => (p.1.toNat, p.2.toNat)) :=
  mapM_eq_map fun p hp => positionPair_eq_ok.mpr ⟨h p hp, rfl⟩

theorem join_of_inRange (h : ∀ p ∈ pairs, InRange l r p) :
    join l r pairs = .ok (joinOn l r
      ((pairs.map fun p => (p.1.toNat, p.2.toNat)).filter (sameKind l r))) := by
  rw [join, positionPairs_of_inRange h]
  rfl

theorem lt_width_of_inRange (h : ∀ p ∈ pairs, InRange l r p) (keep : Nat × Nat → Bool) :
    ∀ p ∈ (pairs.map fun p => (p.1.toNat, p.2.toNat)).filter keep, p.1 < l.width := by
  intro p hp
  obtain ⟨q, hq, rfl⟩ := List.mem_map.mp (List.mem_filter.mp hp).1
  have hrange := h q hq
  unfold InRange at hrange
  omega

/-- The index of a pair that names no column; of two the one that is looked up first. -/
def stray (l : Table) (p : Int × Int) : Int := if 0 ≤ p.1 ∧ p.1 < l.width then p.2 else p.1

theorem positionPair_of_not_inRange {p : Int × Int} (h : ¬InRange l r p) :
    positionPair l r p = .error (.noColumn (stray l p)) := by
  unfold positionPair stray Table.position
  by_cases hleft : 0 ≤ p.1 ∧ p.1 < l.width
  · have hright : ¬(0 ≤ p.2 ∧ p.2 < r.width) := fun hright => h ⟨hleft, hright⟩
    rw [if_pos hleft, if_pos hleft, if_neg hright]
    rfl
  · rw [if_neg hleft, if_neg hleft]
    rfl

theorem positionPairs_eq_error {e : Error} : positionPairs l r pairs = .error e ↔
    ∃ before p after, pairs = before ++ p :: after ∧ (∀ q ∈ before, InRange l r q) ∧
      ¬InRange l r p ∧ e = .noColumn (stray l p) := by
  have hbefore (q : Int × Int) : (∃ b, positionPair l r q = .ok b) ↔ InRange l r q :=
    ⟨fun ⟨_, h⟩ => (positionPair_eq_ok.mp h).1, fun h => ⟨_, positionPair_eq_ok.mpr ⟨h, rfl⟩⟩⟩
  have hfirst (p : Int × Int) :
      positionPair l r p = .error e ↔ ¬InRange l r p ∧ e = .noColumn (stray l p) := by
    by_cases h : InRange l r p
    · rw [positionPair_eq_ok.mpr ⟨h, rfl⟩]
      exact iff_of_false (fun he => nomatch he) fun hnot => hnot.1 h
    · rw [positionPair_of_not_inRange h, Except.error.injEq]
      exact ⟨fun he => ⟨h, he.symm⟩, fun he => he.2.symm⟩
  rw [positionPairs, mapM_eq_error]
  simp only [hbefore, hfirst]

theorem inRange_of_positionPairs {ps : List (Nat × Nat)} (h : positionPairs l r pairs = .ok ps) :
    ∀ p ∈ pairs, InRange l r p := by
  have hstray := exists_mem_mapM (P := fun p => ¬InRange l r p) (Q := fun _ => False)
    (fun h => iff_of_false id (not_not_intro (positionPair_eq_ok.mp h).1)) h
  intro p hp
  by_contra hnot
  obtain ⟨_, _, hfalse⟩ := hstray.mpr ⟨p, hp, hnot⟩
  exact hfalse

theorem join_eq_error_iff {e : Error} : join l r pairs = .error e ↔
    ∃ before p after, pairs = before ++ p :: after ∧ (∀ q ∈ before, InRange l r q) ∧
      ¬InRange l r p ∧ e = .noColumn (stray l p) := by
  rw [join, map_eq_error, positionPairs_eq_error]

theorem exists_join_eq_error_iff :
    (∃ e, join l r pairs = .error e) ↔ ∃ p ∈ pairs, ¬InRange l r p := by
  constructor
  · rintro ⟨e, h⟩
    obtain ⟨before, p, after, rfl, -, hnot, -⟩ := join_eq_error_iff.mp h
    exact ⟨p, by simp, hnot⟩
  · rintro ⟨p, hp, hnot⟩
    cases h : join l r pairs with
    | error e => exact ⟨e, rfl⟩
    | ok t =>
      obtain ⟨ps, hps, -⟩ := map_eq_ok.mp h
      exact absurd (inRange_of_positionPairs hps p hp) hnot

end

/-! ### A join among the rows of the product -/

/-- The row over the columns of both tables has equal cells in each pair of columns of one kind. -/
def Meets (l r : Table) (pairs : List (Int × Int)) (x : Row) : Prop :=
  ∀ p ∈ pairs, l.kind p.1.toNat = r.kind p.2.toNat →
    x.cell p.1.toNat = x.cell (l.width + p.2.toNat)

instance (l r : Table) (pairs : List (Int × Int)) (x : Row) : Decidable (Meets l r pairs x) :=
  inferInstanceAs (Decidable (∀ p ∈ pairs, _ → _))

theorem agreeAcross_filter_sameKind (l r : Table) (pairs : List (Int × Int)) (x : Row) :
    agreeAcross l.width
        ((pairs.map fun p => (p.1.toNat, p.2.toNat)).filter (sameKind l r)) x =
      decide (Meets l r pairs x) := by
  rw [Bool.eq_iff_iff, decide_eq_true_iff, agreeAcross, agree, List.all_map, List.all_filter,
    List.all_map, List.all_eq_true]
  refine forall_congr' fun p => imp_congr_right fun _ => ?_
  simp only [Function.comp_apply, sameKind, shift, Nat.zero_add, Bool.or_eq_true,
    Bool.not_eq_true', decide_eq_false_iff_not, decide_eq_true_iff]
  exact Decidable.imp_iff_not_or.symm

/-- A join is refused just if a pair names a column that does not exist, whatever the rows and the
kinds: for the first such pair, unless its number has too many digits to be told. Otherwise it has
the rows of the product that agree in the pairs of columns of one kind, in their order; if a table
has no rows, it has no rows and no columns. -/
theorem join_eq_filter_product {l r : Table} (hl : l.RowsConform) (hr : r.RowsConform)
    (pairs : List (Int × Int)) :
    ((∃ e, join l r pairs = .error e) ↔ ∃ p ∈ pairs, ¬InRange l r p) ∧
    (∀ e, join l r pairs = .error e ↔ ∃ before p after, pairs = before ++ p :: after ∧
      (∀ q ∈ before, InRange l r q) ∧ ¬InRange l r p ∧
      e = if (stray l p).natAbs < bound maxDigits then .columnOutOfRange (.index (stray l p))
        else .integerTooLong) ∧
    ((∀ p ∈ pairs, InRange l r p) → ∃ t, join l r pairs = .ok t ∧
      (l.rows ≠ [] → r.rows ≠ [] →
        t = { product l r with rows := (product l r).rows.filter fun x => Meets l r pairs x } ∧
        ((∀ p ∈ pairs, l.kind p.1.toNat ≠ r.kind p.2.toNat) → t = product l r)) ∧
      (l.rows = [] ∨ r.rows = [] → t.rows = [] ∧ t.schema = [])) := by
  refine ⟨exists_join_eq_error_iff, fun e => ?_, fun inRange => ?_⟩
  · simp only [← Error.noColumn_eq]
    exact join_eq_error_iff
  let ps := (pairs.map fun p => (p.1.toNat, p.2.toNat)).filter (sameKind l r)
  have hjoin : join l r pairs = .ok (joinOn l r ps) := by
    rw [join, positionPairs_of_inRange inRange]
    rfl
  have hps : ∀ p ∈ ps, p.1 < l.width := by
    intro p hp
    obtain ⟨q, hq, rfl⟩ := List.mem_map.mp (List.mem_filter.mp hp).1
    have hrange := inRange q hq
    unfold InRange at hrange
    omega
  refine ⟨joinOn l r ps, hjoin, fun hln hrn => ?_, fun h => ?_⟩
  · have hrows : (joinOn l r ps).rows = (product l r).rows.filter fun x => Meets l r pairs x := by
      rw [rows_joinOn hl hr, joinedRows_eq_filter hl r hps, rows_product hl hr hln hrn]
      exact List.filter_congr fun x _ => agreeAcross_filter_sameKind l r pairs x
    have htable : joinOn l r ps = { product l r with rows := (joinOn l r ps).rows } := by
      rw [joinOn_of_rows hln hrn, product_of_rows hln hrn]
      rfl
    rw [hrows] at htable
    refine ⟨htable, fun hkinds => htable.trans ?_⟩
    have hall : ∀ x, Meets l r pairs x := fun x p hp hkind => absurd hkind (hkinds p hp)
    rw [List.filter_eq_self.mpr fun x _ => decide_eq_true (hall x)]
  · rw [joinOn_of_nil h]
    exact ⟨rfl, rfl⟩

/-- The kinds in the second pair differ, so only the first one counts. A null equals a null. -/
theorem join_eq_filter_product_sample :
    Sample.animals.RowsConform ∧ Sample.legs.RowsConform ∧
      (∀ p ∈ [((0 : Int), (0 : Int)), (1, 0)], InRange Sample.animals Sample.legs p) ∧
      (∃ t, join Sample.animals Sample.legs [(0, 0), (1, 0)] = .ok t ∧
        t.rows = [[.numeric (some 1), .text (some "ant"), .numeric (some 1)],
          [.numeric (some 1), .text (some "ant"), .numeric (some 1)],
          [.numeric none, .text (some "bee"), .numeric none]]) ∧
      join Sample.animals Sample.legs [(1, 0), (0, -1)] =
        .error (.columnOutOfRange (.index (-1))) := by
  have hl : Sample.animals.RowsConform := by decide
  have hr : Sample.legs.RowsConform := by decide
  have inRange : ∀ p ∈ [((0 : Int), (0 : Int)), (1, 0)], InRange Sample.animals Sample.legs p := by
    decide
  obtain ⟨-, -, hjoin⟩ := join_eq_filter_product hl hr [(0, 0), (1, 0)]
  obtain ⟨-, herror, -⟩ := join_eq_filter_product hl hr [(1, 0), (0, -1)]
  obtain ⟨t, ht, hrows, -⟩ := hjoin inRange
  obtain ⟨htable, -⟩ := hrows (by decide) (by decide)
  have hshort : (-1 : Int).natAbs < bound maxDigits := Text.Numeral.isShort_iff.mp (by decide)
  refine ⟨hl, hr, inRange, ⟨t, ht, (congrArg Table.rows htable).trans (by decide)⟩,
    (herror _).mpr ⟨[(1, 0)], (0, -1), [], rfl, by decide, by decide, ?_⟩⟩
  exact (if_pos hshort).symm

/-- A column of the least number of too many digits is not refused as one that does not exist. -/
theorem not_join_eq_filter_product :
    ¬∀ (l r : Table) (pairs : List (Int × Int)), l.WellFormed → r.WellFormed →
      (∃ p ∈ pairs, ¬InRange l r p) →
      ∃ i, join l r pairs = .error (.columnOutOfRange (.index i)) := by
  intro h
  let none : Table := .empty []
  let p : Int × Int := (bound maxDigits, 0)
  have hfit : none.WellFormed := Table.wellFormed_empty [] []
  have hleft : ¬(0 ≤ p.1 ∧ p.1 < none.width) := fun hin => Int.not_lt.mpr hin.1 hin.2
  have hnot : ¬InRange none none p := fun hin => hleft hin.1
  have herror : join none none [p] = .error (.noColumn (stray none p)) := join_eq_error_iff.mpr
    ⟨[], p, [], rfl, fun _ hq => absurd hq List.not_mem_nil, hnot, rfl⟩
  have hlong := Text.Numeral.isShort_eq_false_iff.mp Text.Numeral.isShort_bound
  obtain ⟨i, hi⟩ := h none none [p] hfit hfit ⟨p, List.mem_cons_self, hnot⟩
  rw [herror, stray, if_neg hleft, Error.noColumn, Error.citing_of_isLong hlong] at hi
  cases hi

/-! ### Joins of three tables -/

/-- Pairs of positions as pairs of integers. -/
def integral (ps : List (Nat × Nat)) : List (Int × Int) := ps.map fun p => (p.1, p.2)

theorem join_integral {l r : Table} {ps : List (Nat × Nat)}
    (inRange : ∀ p ∈ ps, p.1 < l.width ∧ p.2 < r.width) :
    join l r (integral ps) = .ok (joinOn l r (ps.filter (sameKind l r))) := by
  rw [join, integral, positionPairs_natCast inRange]
  rfl

section
variable {t a b c : Table}

theorem width_of_schema (h : t.schema = a.schema ++ b.schema) : t.width = a.width + b.width :=
  (congrArg List.length h).trans (List.length_append ..)

theorem inRange_left (h : t.schema = a.schema ++ b.schema) {qs rs : List (Nat × Nat)}
    (hqs : ∀ p ∈ qs, p.1 < b.width ∧ p.2 < c.width) (hrs : ∀ p ∈ rs, p.1 < a.width ∧ p.2 < c.width) :
    ∀ p ∈ qs.map (shift a.width 0) ++ rs, p.1 < t.width ∧ p.2 < c.width := by
  rw [width_of_schema h, List.forall_mem_append, List.forall_mem_map]
  refine ⟨fun p hp => ?_, fun p hp => ?_⟩
  · have hlt := hqs p hp
    simp only [shift]
    omega
  · have hlt := hrs p hp
    omega

theorem inRange_right (h : t.schema = b.schema ++ c.schema) {ps rs : List (Nat × Nat)}
    (hps : ∀ p ∈ ps, p.1 < a.width ∧ p.2 < b.width) (hrs : ∀ p ∈ rs, p.1 < a.width ∧ p.2 < c.width) :
    ∀ p ∈ ps ++ rs.map (shift 0 b.width), p.1 < a.width ∧ p.2 < t.width := by
  rw [width_of_schema h, List.forall_mem_append, List.forall_mem_map]
  refine ⟨fun p hp => ?_, fun p hp => ?_⟩
  · have hlt := hps p hp
    omega
  · have hlt := hrs p hp
    simp only [shift]
    omega

theorem kind_left (h : t.schema = a.schema ++ b.schema) {i : Nat} (hi : i < a.width) :
    t.kind i = a.kind i := by
  rw [Table.kind, h]
  exact List.getD_append _ _ _ _ hi

theorem kind_right (h : t.schema = a.schema ++ b.schema) (i : Nat) :
    t.kind (a.width + i) = b.kind i := by
  rw [Table.kind, h, Table.width, List.getD_append_right _ _ _ _ (Nat.le_add_right ..),
    Nat.add_sub_cancel_left]
  rfl

theorem filter_sameKind_left (h : t.schema = a.schema ++ b.schema) {qs rs : List (Nat × Nat)}
    (hrs : ∀ p ∈ rs, p.1 < a.width) :
    (qs.map (shift a.width 0) ++ rs).filter (sameKind t c) =
      (qs.filter (sameKind b c)).map (shift a.width 0) ++ rs.filter (sameKind a c) := by
  have hq : sameKind t c ∘ shift a.width 0 = sameKind b c := by
    funext p
    simp only [Function.comp_apply, sameKind, shift, kind_right h, Nat.zero_add]
  have hr : ∀ p ∈ rs, sameKind t c p = sameKind a c p := by
    intro p hp
    rw [sameKind, sameKind, kind_left h (hrs p hp)]
  rw [List.filter_append, List.filter_map, hq, List.filter_congr hr]

theorem filter_sameKind_right (h : t.schema = b.schema ++ c.schema) {ps rs : List (Nat × Nat)}
    (hps : ∀ p ∈ ps, p.2 < b.width) :
    (ps ++ rs.map (shift 0 b.width)).filter (sameKind a t) =
      ps.filter (sameKind a b) ++ (rs.filter (sameKind a c)).map (shift 0 b.width) := by
  have hr : sameKind a t ∘ shift 0 b.width = sameKind a c := by
    funext p
    simp only [Function.comp_apply, sameKind, shift, kind_right h, Nat.zero_add]
  have hp : ∀ p ∈ ps, sameKind a t p = sameKind a b p := by
    intro p hp
    rw [sameKind, sameKind, kind_left h (hps p hp)]
  rw [List.filter_append, List.filter_map, hr, List.filter_congr hp]

end

/-- The pairs of columns of three tables, those of the first two being of the given widths: between
the first and the second, between the second and the third, and between the first and the third. -/
def throughout (v w : Nat) (ps qs rs : List (Nat × Nat)) : List (Nat × Nat) :=
  ps.map (shift 0 v) ++ qs.map (shift v (v + w)) ++ rs.map (shift 0 (v + w))

theorem agreeAcross_append_left {x : Row} {w : Nat} {ps : List (Nat × Nat)}
    (h : ∀ p ∈ ps, p.1 < x.length ∧ w + p.2 < x.length) (y : Row) :
    agreeAcross w ps (x ++ y) = agreeAcross w ps x := by
  refine agree_congr (fun p hp => ?_) fun p hp => ?_
  · obtain ⟨q, hq, rfl⟩ := List.mem_map.mp hp
    have hlt : 0 + q.1 < x.length := by
      have := (h q hq).1
      omega
    exact cell_append_left hlt y
  · obtain ⟨q, hq, rfl⟩ := List.mem_map.mp hp
    exact cell_append_left (h q hq).2 y

section
variable {a b c t : Table} (ha : a.RowsConform) (hb : b.RowsConform) {ps qs rs : List (Nat × Nat)}
  (hps : ∀ p ∈ ps, p.1 < a.width ∧ p.2 < b.width) (hqs : ∀ p ∈ qs, p.1 < b.width ∧ p.2 < c.width)
  (hrs : ∀ p ∈ rs, p.1 < a.width ∧ p.2 < c.width)
include ha hb hps hqs hrs

/-- When the first two tables are joined first, the pairs between the others are shifted on the
left. -/
theorem joinedRows_left (ht : t.RowsConform) (hschema : t.schema = a.schema ++ b.schema)
    (hrows : t.rows = joinedRows a b ps) :
    joinedRows t c (qs.map (shift a.width 0) ++ rs) =
      (beside a.rows (beside b.rows c.rows)).filter fun x =>
        agree (throughout a.width b.width ps qs rs) x x := by
  have hpass : ∀ x ∈ beside a.rows b.rows, ∀ y ∈ c.rows,
      agreeAcross a.width ps (x ++ y) = agreeAcross a.width ps x := by
    intro x hx y _
    have hlength : x.length = a.width + b.width := by
      rw [Row.length_of_conforms (conforms_of_mem_beside ha hb hx), List.length_append]
      rfl
    refine agreeAcross_append_left (fun p hp => ?_) y
    have hlt := hps p hp
    omega
  rw [joinedRows_eq_filter ht c fun p hp => (inRange_left hschema hqs hrs p hp).1, hrows,
    joinedRows_eq_filter ha b fun p hp => (hps p hp).1, ← filter_beside_left hpass, beside_assoc,
    List.filter_filter, width_of_schema hschema]
  refine List.filter_congr fun x _ => ?_
  rw [agreeAcross, agreeAcross, List.map_append, map_shift_map_shift, throughout, agree_append,
    agree_append, agree_append, Nat.zero_add, Nat.add_zero, Bool.and_comm, Bool.and_assoc]

/-- When the last two tables are joined first, the pairs between the others are shifted on the
right. -/
theorem joinedRows_right (hschema : t.schema = b.schema ++ c.schema)
    (hrows : t.rows = joinedRows b c qs) :
    joinedRows a t (ps ++ rs.map (shift 0 b.width)) =
      (beside a.rows (beside b.rows c.rows)).filter fun x =>
        agree (throughout a.width b.width ps qs rs) x x := by
  have hpass : ∀ x ∈ a.rows, ∀ y ∈ beside b.rows c.rows,
      agree ((qs.map (shift 0 b.width)).map (shift a.width a.width)) (x ++ y) (x ++ y) =
        agreeAcross b.width qs y := by
    intro x hx y _
    have hlength : x.length = a.width := Row.length_of_conforms (ha x hx)
    rw [← hlength]
    exact agree_map_shift (fun p _ => cell_append_right x y p.1) fun p _ => cell_append_right x y p.2
  rw [joinedRows_eq_filter ha t fun p hp => (inRange_right hschema hps hrs p hp).1, hrows,
    joinedRows_eq_filter hb c fun p hp => (hqs p hp).1,
    ← filter_beside_right (q := fun x => agree _ x x) hpass, List.filter_filter]
  refine List.filter_congr fun x _ => ?_
  rw [agreeAcross, List.map_append, map_shift_map_shift, map_shift_map_shift, throughout,
    agree_append, agree_append, agree_append, Nat.zero_add, Nat.add_zero, Bool.and_right_comm]

end

theorem exists_join {l r : Table} (hl : l.RowsConform) (hr : r.RowsConform) (hln : l.rows ≠ [])
    (hrn : r.rows ≠ []) {ps : List (Nat × Nat)}
    (inRange : ∀ p ∈ ps, p.1 < l.width ∧ p.2 < r.width) :
    ∃ t, join l r (integral ps) = .ok t ∧
      t = combined l r (joinedRows l r (ps.filter (sameKind l r))) ∧
      t.rows = joinedRows l r (ps.filter (sameKind l r)) :=
  ⟨_, join_integral inRange, joinOn_of_rows hln hrn _, rows_joinOn hl hr _⟩

/-- Three tables with rows have the same join in whichever order they come together, as far as the
rows go. A join without rows leaves no columns to the next, so the tables are the same if neither of
the first joins is without rows. -/
theorem join_assoc {a b c : Table} (ha : a.WellFormed) (hb : b.WellFormed) (hc : c.WellFormed)
    (han : a.rows ≠ []) (hbn : b.rows ≠ []) (hcn : c.rows ≠ []) {ps qs rs : List (Nat × Nat)}
    (hps : ∀ p ∈ ps, p.1 < a.width ∧ p.2 < b.width)
    (hqs : ∀ p ∈ qs, p.1 < b.width ∧ p.2 < c.width)
    (hrs : ∀ p ∈ rs, p.1 < a.width ∧ p.2 < c.width) :
    ∃ ab bc x y, join a b (integral ps) = .ok ab ∧ join b c (integral qs) = .ok bc ∧
      join ab c (integral (qs.map (shift a.width 0) ++ rs)) = .ok x ∧
      join a bc (integral (ps ++ rs.map (shift 0 b.width))) = .ok y ∧
      x.rows = y.rows ∧ (ab.rows ≠ [] → bc.rows ≠ [] → x = y) := by
  obtain ⟨ab, hab, habeq, habrows⟩ := exists_join ha.rows hb.rows han hbn hps
  obtain ⟨bc, hbc, hbceq, hbcrows⟩ := exists_join hb.rows hc.rows hbn hcn hqs
  have habschema : ab.schema = a.schema ++ b.schema := habeq ▸ rfl
  have hbcschema : bc.schema = b.schema ++ c.schema := hbceq ▸ rfl
  have habwf : ab.WellFormed := habeq ▸ wellFormed_combined _
  have hbcwf : bc.WellFormed := hbceq ▸ wellFormed_combined _
  have hps' : ∀ p ∈ ps.filter (sameKind a b), p.1 < a.width ∧ p.2 < b.width :=
    fun p hp => hps p (List.mem_filter.mp hp).1
  have hqs' : ∀ p ∈ qs.filter (sameKind b c), p.1 < b.width ∧ p.2 < c.width :=
    fun p hp => hqs p (List.mem_filter.mp hp).1
  have hrs' : ∀ p ∈ rs.filter (sameKind a c), p.1 < a.width ∧ p.2 < c.width :=
    fun p hp => hrs p (List.mem_filter.mp hp).1
  have hrows : joinedRows ab c ((qs.map (shift a.width 0) ++ rs).filter (sameKind ab c)) =
      joinedRows a bc ((ps ++ rs.map (shift 0 b.width)).filter (sameKind a bc)) := by
    rw [filter_sameKind_left habschema fun p hp => (hrs p hp).1,
      filter_sameKind_right hbcschema fun p hp => (hps p hp).2,
      joinedRows_left ha.rows hb.rows hps' hqs' hrs' habwf.rows habschema habrows,
      joinedRows_right ha.rows hb.rows hps' hqs' hrs' hbcschema hbcrows]
  refine ⟨ab, bc, _, _, hab, hbc, join_integral (inRange_left habschema hqs hrs),
    join_integral (inRange_right hbcschema hps hrs), ?_, fun habn hbcn => ?_⟩
  · rw [rows_joinOn habwf.rows hc.rows, rows_joinOn ha.rows hbcwf.rows, hrows]
  · rw [joinOn_of_rows habn hcn, joinOn_of_rows han hbcn, hrows, habeq, hbceq]
    exact combined_combined ha hb hc ..

/-! ### Three tables -/

namespace Sample

def sounds : Table :=
  { schema := [.text, .text], header := ["name", "sound"],
    rows := [[.text (some "bee"), .text (some "buzz")], [.text (some "ant"), .text none]] }

end Sample

theorem rows_ne_nil_of_ok {x : Except Error Table} {t : Table} (h : x = .ok t)
    (hx : x.toOption.any (fun t => decide (t.rows ≠ [])) = true) : t.rows ≠ [] := by
  rw [h] at hx
  exact of_decide_eq_true hx

/-- The numbers of legs do not decide which sound belongs to a row, the names do. -/
theorem join_assoc_sample :
    Sample.animals.WellFormed ∧ Sample.legs.WellFormed ∧ Sample.sounds.WellFormed ∧
      Sample.animals.rows ≠ [] ∧ Sample.legs.rows ≠ [] ∧ Sample.sounds.rows ≠ [] ∧
      (∀ p ∈ [(0, 0)], p.1 < Sample.animals.width ∧ p.2 < Sample.legs.width) ∧
      (∀ p ∈ [(0, 1)], p.1 < Sample.legs.width ∧ p.2 < Sample.sounds.width) ∧
      (∀ p ∈ [(1, 0)], p.1 < Sample.animals.width ∧ p.2 < Sample.sounds.width) ∧
      ∃ ab bc x, join Sample.animals Sample.legs [(0, 0)] = .ok ab ∧
        join Sample.legs Sample.sounds [(0, 1)] = .ok bc ∧ ab.rows ≠ [] ∧ bc.rows ≠ [] ∧
        join ab Sample.sounds [(2, 1), (1, 0)] = .ok x ∧
        join Sample.animals bc [(0, 0), (1, 1)] = .ok x := by
  have ha : Sample.animals.WellFormed := by decide
  have hb : Sample.legs.WellFormed := by decide
  have hc : Sample.sounds.WellFormed := by decide
  have hps : ∀ p ∈ [(0, 0)], p.1 < Sample.animals.width ∧ p.2 < Sample.legs.width := by decide
  have hqs : ∀ p ∈ [(0, 1)], p.1 < Sample.legs.width ∧ p.2 < Sample.sounds.width := by decide
  have hrs : ∀ p ∈ [(1, 0)], p.1 < Sample.animals.width ∧ p.2 < Sample.sounds.width := by decide
  obtain ⟨ab, bc, x, y, hab, hbc, hx, hy, -, heq⟩ :=
    join_assoc ha hb hc (by decide) (by decide) (by decide) hps hqs hrs
  have habn : ab.rows ≠ [] := rows_ne_nil_of_ok hab (by decide)
  have hbcn : bc.rows ≠ [] := rows_ne_nil_of_ok hbc (by decide)
  rw [← heq habn hbcn] at hy
  exact ⟨ha, hb, hc, by decide, by decide, by decide, hps, hqs, hrs, ab, bc, x, hab, hbc, habn, hbcn,
    hx, hy⟩

end TableAlgebra.Algebra
