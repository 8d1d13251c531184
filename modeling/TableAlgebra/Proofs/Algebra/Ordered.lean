import Mathlib.Data.List.FinRange
import TableAlgebra.Proofs.Cell.Order
import TableAlgebra.Proofs.Table.Changes
import TableAlgebra.Proofs.Table.Sorted

/-!
# Tables in order

Sorting by a column is stable: rows that tie keep the order they had. So what a table was sorted by
before goes on to count where the new column ties. Rows are told apart by the places they had, so
equal ones count separately.

* `pairwise_mergeSort_of_pairwise`   a stable sort keeps any order among the elements that tie;
* `Precedes`, `Arranged`             the order by some columns and then by place;
* `Arranged.sortBy`                  sorting puts a column before those that count already;
* `Arranged.unique`                  an order by columns and place leaves no choice;
* `orderBy_spec`                     sorting a table by a column.
-/

namespace TableAlgebra.Algebra

open Table (rowLE RowsConform)
open Text.Numeral (bound maxDigits)

/-! ### Stable sorting -/

theorem pairwise_zipIdx {α : Type} (l : List α) : l.zipIdx.Pairwise fun p q => p.2 < q.2 := by
  have hplaces : (l.zipIdx.map Prod.snd).Pairwise (· < ·) := by
    rw [List.zipIdx_map_snd]
    exact List.pairwise_lt_range'
  exact List.pairwise_map.mp hplaces

/-- Where the comparison is a total preorder, elements that tie stay in any order they were in. -/
theorem pairwise_mergeSort_of_pairwise {α : Type} (le : α → α → Bool) {R : α → α → Prop}
    {l : List α} (trans : ∀ a ∈ l, ∀ b ∈ l, ∀ c ∈ l, le a b = true → le b c = true → le a c = true)
    (total : ∀ a ∈ l, ∀ b ∈ l, (le a b || le b a) = true) (h : l.Pairwise R) :
    (l.mergeSort le).Pairwise fun a b => le a b = true ∧ (le b a = true → R a b) := by
  let placed (i : Fin l.length) : α × Nat := (l[i], i)
  let order := (List.finRange l.length).mergeSort fun i j =>
    List.zipIdxLE le (placed i) (placed j)
  have hzip : (List.finRange l.length).map placed = l.zipIdx := by
    apply List.ext_getElem
    · simp
    · intro i hi hi'
      simp [placed]
  have hplaced : order.map placed = l.zipIdx.mergeSort (List.zipIdxLE le) := by
    rw [← hzip]
    exact List.map_mergeSort fun _ _ _ _ => rfl
  have hsort : l.mergeSort le = order.map fun i => l[i] := by
    rw [← List.mergeSort_zipIdx, ← hplaced, List.map_map]
    rfl
  have hpairwise : order.Pairwise fun i j => List.zipIdxLE le (placed i) (placed j) = true := by
    let leAt (i j : Fin l.length) : Bool := le l[i] l[j]
    have htrans : ∀ i j k, leAt i j = true → leAt j k = true → leAt i k = true := fun i j k =>
      trans _ (List.getElem_mem i.2) _ (List.getElem_mem j.2) _ (List.getElem_mem k.2)
    have htotal : ∀ i j, (leAt i j || leAt j i) = true := fun i j =>
      total _ (List.getElem_mem i.2) _ (List.getElem_mem j.2)
    exact List.pairwise_mergeSort
      (fun i j k => List.zipIdxLE_trans htrans (i, (i : Nat)) (j, (j : Nat)) (k, (k : Nat)))
      (fun i j => List.zipIdxLE_total htotal (i, (i : Nat)) (j, (j : Nat))) _
  have hnodup : order.Nodup := (List.mergeSort_perm _ _).nodup_iff.mpr (List.nodup_finRange _)
  rw [hsort, List.pairwise_map]
  refine (hpairwise.and hnodup).imp fun {i j} ⟨hle, hne⟩ => ?_
  simp only [List.zipIdxLE, placed] at hle
  split at hle
  · next hij =>
    refine ⟨hij, fun hji => ?_⟩
    rw [if_pos hji, decide_eq_true_iff] at hle
    have hlt : (i : Nat) < j := by omega
    exact List.pairwise_iff_getElem.mp h i j i.2 j.2 hlt
  · cases hle

/-! ### Orders by columns -/

/-- Of two rows with the places they had, the first comes first in the order of some columns: it is
less in the first column in which they do not tie, or they tie in all and it had the earlier
place. -/
def Precedes : List Nat → Row × Nat → Row × Nat → Prop
  | [], p, q => p.2 < q.2
  | c :: cs, p, q =>
    (p.1.cell c).order (q.1.cell c) < 0 ∨
      (p.1.cell c).order (q.1.cell c) = 0 ∧ Precedes cs p q

instance Precedes.decidable : (cs : List Nat) → (p q : Row × Nat) → Decidable (Precedes cs p q)
  | [], p, q => inferInstanceAs (Decidable (p.2 < q.2))
  | _ :: cs, p, q =>
    have := Precedes.decidable cs p q
    inferInstanceAs (Decidable (_ ∨ _ ∧ Precedes cs p q))

/-- The second list has the rows of the first, each from a place of its own, in the order of some
columns. -/
def Arranged (cs : List Nat) (xs ys : List Row) : Prop :=
  ∃ placed : List (Row × Nat), ys = placed.map Prod.fst ∧ placed.Perm xs.zipIdx ∧
    placed.Pairwise (Precedes cs)

/-- The second list has the rows of the first, each from a place of its own, none greater in a
column than one after it, and those that tie there in the order of their places. -/
def StablySorted (c : Nat) (xs ys : List Row) : Prop :=
  ∃ placed : List (Row × Nat), ys = placed.map Prod.fst ∧ placed.Perm xs.zipIdx ∧
    (placed.Pairwise fun p q => (p.1.cell c).order (q.1.cell c) ≤ 0) ∧
    placed.Pairwise fun p q => (p.1.cell c).order (q.1.cell c) = 0 → p.2 < q.2

theorem Precedes.not_precedes {cs : List Nat} {p q : Row × Nat} (h : Precedes cs p q) :
    ¬Precedes cs q p := by
  induction cs with
  | nil =>
    simp only [Precedes] at *
    omega
  | cons c cs ih =>
    have hswap := Cell.order_swap (p.1.cell c) (q.1.cell c)
    rintro (h' | ⟨h', hqp⟩) <;> rcases h with h | ⟨h, hpq⟩
    · omega
    · omega
    · omega
    · exact ih hpq hqp

theorem precedes_singleton_iff {c : Nat} {p q : Row × Nat} :
    Precedes [c] p q ↔ (p.1.cell c).order (q.1.cell c) ≤ 0 ∧
      ((p.1.cell c).order (q.1.cell c) = 0 → p.2 < q.2) := by
  simp only [Precedes]
  omega

theorem stablySorted_iff {c : Nat} {xs ys : List Row} :
    StablySorted c xs ys ↔ Arranged [c] xs ys := by
  refine exists_congr fun placed => and_congr_right fun _ => and_congr_right fun _ => ?_
  rw [← List.pairwise_and_iff]
  exact List.Pairwise.iff fun _ _ => precedes_singleton_iff.symm

namespace Arranged

/-- A list is in the order of its places. -/
theorem refl (xs : List Row) : Arranged [] xs xs :=
  ⟨xs.zipIdx, (List.zipIdx_map_fst 0 xs).symm, .refl _, pairwise_zipIdx xs⟩

theorem unique {cs : List Nat} {xs ys zs : List Row} (hy : Arranged cs xs ys)
    (hz : Arranged cs xs zs) : ys = zs := by
  obtain ⟨placed, rfl, hperm, hpairwise⟩ := hy
  obtain ⟨placed', rfl, hperm', hpairwise'⟩ := hz
  have heq : placed = placed' := List.Perm.eq_of_pairwise
    (fun _ _ _ _ h h' => absurd h' h.not_precedes) hpairwise hpairwise' (hperm.trans hperm'.symm)
  rw [heq]

end Arranged

/-! ### Sorting a column -/

theorem rowLE_total (c : Nat) (r s : Row) : (rowLE c r s || rowLE c s r) = true := by
  have hswap := Cell.order_swap (r.cell c) (s.cell c)
  simp only [rowLE, Bool.or_eq_true, decide_eq_true_iff]
  omega

section
variable {t : Table} (h : t.RowsConform) (c : Nat)
include h

theorem rowLE_trans {r s u : Row} (hr : r ∈ t.rows) (hs : s ∈ t.rows) (hu : u ∈ t.rows)
    (hrs : rowLE c r s = true) (hsu : rowLE c s u = true) : rowLE c r u = true := by
  have hle := Cell.order_trans (Table.kind_cell_eq h hr hs) (Table.kind_cell_eq h hs hu)
    (of_decide_eq_true hrs) (of_decide_eq_true hsu)
  exact decide_eq_true hle

theorem rowsConform_sortBy : (t.sortBy c).RowsConform :=
  fun r hr => h r ((Table.perm_rows_sortBy t c).mem_iff.mp hr)

theorem pairwise_rows_sortBy : (t.sortBy c).rows.Pairwise fun r s => rowLE c r s = true := by
  have hany : t.rows.Pairwise fun _ _ => True := List.pairwise_of_forall fun _ _ => trivial
  have hstable := pairwise_mergeSort_of_pairwise (rowLE c)
    (fun r hr s hs u hu => rowLE_trans h c hr hs hu) (fun r _ s _ => rowLE_total c r s) hany
  exact hstable.imp And.left

/-- Sorting by a column puts it before the columns that the rows are in the order of. -/
theorem Arranged.sortBy {cs : List Nat} {xs : List Row} (ha : Arranged cs xs t.rows) :
    Arranged (c :: cs) xs (t.sortBy c).rows := by
  obtain ⟨placed, hrows, hperm, hpairwise⟩ := ha
  let le (p q : Row × Nat) : Bool := rowLE c p.1 q.1
  have hmem : ∀ p ∈ placed, p.1 ∈ t.rows := fun p hp => hrows ▸ List.mem_map_of_mem hp
  refine ⟨placed.mergeSort le, ?_, (List.mergeSort_perm placed le).trans hperm, ?_⟩
  · rw [Table.sortBy, hrows]
    exact (List.map_mergeSort (r := le) (s := rowLE c) (f := Prod.fst) fun _ _ _ _ => rfl).symm
  · have hstable := pairwise_mergeSort_of_pairwise le
      (fun p hp q hq u hu => rowLE_trans h c (hmem p hp) (hmem q hq) (hmem u hu))
      (fun p _ q _ => rowLE_total c p.1 q.1) hpairwise
    refine hstable.imp fun {p q} ⟨hle, htie⟩ => ?_
    have hle : (p.1.cell c).order (q.1.cell c) ≤ 0 := of_decide_eq_true hle
    rcases Int.lt_or_eq_of_le hle with hlt | heq
    · exact Or.inl hlt
    · have hge : (q.1.cell c).order (p.1.cell c) ≤ 0 := by
        rw [Cell.order_swap, heq]
        decide
      exact Or.inr ⟨heq, htie (decide_eq_true hge)⟩

/-- A table that is sorted by the column stays as it is. -/
theorem sortBy_sortBy : (t.sortBy c).sortBy c = t.sortBy c := by
  have hrows : ((t.sortBy c).sortBy c).rows = (t.sortBy c).rows := by
    exact List.mergeSort_of_pairwise (pairwise_rows_sortBy h c)
  exact congrArg (fun rows => { t with rows }) hrows

end

/-! ### Columns that do not exist -/

theorem orderBy_eq_error {t : Table} {column : Int} (h : ¬(0 ≤ column ∧ column < t.width)) :
    orderBy t column = .error (.noColumn column) ∧ t.change (.sortBy column) = t := by
  have hposition : t.position column = .error (.noColumn column) := if_neg h
  have hsort : t.sort column = (.error (.noColumn column), t) := by
    rw [Table.sort, hposition]
  constructor
  · rw [orderBy, Table.sortedBy, hsort]
    rfl
  · exact congrArg Prod.snd hsort

theorem change_sortBy_of_ok {t u : Table} {column : Int} (h : orderBy t column = .ok u) :
    t.change (.sortBy column) = u := by
  obtain ⟨-, -, rfl⟩ := map_eq_ok.mp h
  rfl

/-! ### The operator -/

/-- Sorting by a column is the one way to put the rows in its order and leave those that tie where
they were. Doing it again changes nothing, and doing it after another column leaves the order of that
one where the new one ties. Nulls come first, and only the empty text ties with them. A column may
not be sorted if it has both a null number and an integer of too many digits, and one that does not
exist is refused. -/
theorem orderBy_spec {t : Table} (h : t.RowsConform) :
    (∀ c < t.width,
      (¬t.Mixes c → ∃ u, orderBy t c = .ok u ∧ orderBy u c = .ok u) ∧
      (∀ e, orderBy t c = .error e → e = .integerTooLong ∧ t.Mixes c) ∧
      ∀ u, orderBy t c = .ok u → t.change (.sortBy c) = u ∧ u.schema = t.schema ∧
        u.header = t.header ∧ (∀ rows, StablySorted c t.rows rows ↔ rows = u.rows) ∧
        ∀ v, orderBy u c = .ok v → v = u) ∧
    (∀ a < t.width, ∀ b < t.width,
      (¬t.Mixes a → ¬t.Mixes b → ∃ u v, orderBy t b = .ok u ∧ orderBy u a = .ok v) ∧
      ∀ u v, orderBy t b = .ok u → orderBy u a = .ok v → v.schema = t.schema ∧
        v.header = t.header ∧ ∀ rows, Arranged [a, b] t.rows rows ↔ rows = v.rows) ∧
    (∀ column : Int, ¬(0 ≤ column ∧ column < t.width) → t.change (.sortBy column) = t ∧
      (column.natAbs < bound maxDigits →
        orderBy t column = .error (.columnOutOfRange (.index column))) ∧
      (bound maxDigits ≤ column.natAbs → orderBy t column = .error .integerTooLong)) ∧
    ∀ (k : Kind) (x : Cell) (d : Int), (Cell.null k).compare x = .ok d →
      d ≤ 0 ∧ (d = 0 ↔ x.isNull = true ∨ x = .text (some [])) := by
  have conform := rowsConform_sortBy h
  refine ⟨fun c hc => ⟨fun hm => ?_, fun e he => ?_, fun u hu => ?_⟩, fun a ha b hb => ⟨?_, ?_⟩,
    fun column hcolumn => ?_, fun k x d hd => ?_⟩
  · have hwidth : c < (t.sortBy c).width := hc
    refine ⟨t.sortBy c, Table.orderBy_of_not_mixes h hc hm, ?_⟩
    rw [Table.orderBy_of_not_mixes (conform c) hwidth (mt Table.mixes_sortBy.mp hm),
      sortBy_sortBy h]
  · rcases Table.orderBy_cases h hc with hok | ⟨hm, herror⟩
    · rw [hok] at he
      cases he
    · rw [herror] at he
      cases he
      exact ⟨rfl, hm⟩
  · have hsorted := (Arranged.refl t.rows).sortBy h c
    cases Table.eq_sortBy_of_orderBy h hc hu
    refine ⟨change_sortBy_of_ok hu, rfl, rfl, fun rows => ?_, fun v hv => ?_⟩
    · rw [stablySorted_iff]
      exact ⟨fun hrows => hrows.unique hsorted, fun hrows => hrows ▸ hsorted⟩
    · have hwidth : c < (t.sortBy c).width := hc
      rw [Table.eq_sortBy_of_orderBy (conform c) hwidth hv, sortBy_sortBy h]
  · intro hma hmb
    have hwidth : a < (t.sortBy b).width := ha
    exact ⟨_, _, Table.orderBy_of_not_mixes h hb hmb,
      Table.orderBy_of_not_mixes (conform b) hwidth (mt Table.mixes_sortBy.mp hma)⟩
  · intro u v hu hv
    cases Table.eq_sortBy_of_orderBy h hb hu
    have hwidth : a < (t.sortBy b).width := ha
    cases Table.eq_sortBy_of_orderBy (conform b) hwidth hv
    have hsorted := ((Arranged.refl t.rows).sortBy h b).sortBy (conform b) a
    exact ⟨rfl, rfl, fun rows =>
      ⟨fun hrows => hrows.unique hsorted, fun hrows => hrows ▸ hsorted⟩⟩
  · obtain ⟨herror, hchange⟩ := orderBy_eq_error hcolumn
    refine ⟨hchange, fun hshort => ?_, fun hlong => ?_⟩
    · rw [herror, Error.noColumn, Error.citing_of_isShort (Text.Numeral.isShort_iff.mpr hshort)]
    · rw [herror, Error.noColumn, Error.citing_of_isLong hlong]
  · obtain ⟨-, rfl⟩ := Cell.compare_eq_ok.mp hd
    refine ⟨Cell.order_null_nonpos k x, ?_⟩
    rw [Cell.order_null_eq_zero_iff, Cell.written_eq_nil_iff]

/-! ### Ties and nulls -/

namespace Sample

def fruits : Table :=
  { schema := [.numeric, .text],
    rows := [[.numeric (some 3), .text (some "fig")], [.numeric none, .text (some "pear")],
      [.numeric (some 3), .text (some [])], [.numeric (some 1), .text none],
      [.numeric (some 1), .text (some "fig")]] }

theorem not_mixes_fruits (c : Nat) : ¬fruits.Mixes c :=
  Table.not_mixes_of_isWritable (by decide) c

end Sample

/-- The empty text and the null tie, and so do the figs: by name alone they stay in the order they
had, and after sorting by number in that order. -/
theorem orderBy_spec_sample :
    Sample.fruits.RowsConform ∧ 0 < Sample.fruits.width ∧ 1 < Sample.fruits.width ∧
      (∃ u, orderBy Sample.fruits 1 = .ok u ∧
        u.rows = [[.numeric (some 3), .text (some [])], [.numeric (some 1), .text none],
          [.numeric (some 3), .text (some "fig")], [.numeric (some 1), .text (some "fig")],
          [.numeric none, .text (some "pear")]]) ∧
      (∃ u v, orderBy Sample.fruits 0 = .ok u ∧ orderBy u 1 = .ok v ∧
        v.rows = [[.numeric (some 1), .text none], [.numeric (some 3), .text (some [])],
          [.numeric (some 1), .text (some "fig")], [.numeric (some 3), .text (some "fig")],
          [.numeric none, .text (some "pear")]]) ∧
      ¬(0 ≤ (-1 : Int) ∧ (-1 : Int) < Sample.fruits.width) ∧
      orderBy Sample.fruits (-1) = .error (.columnOutOfRange (.index (-1))) := by
  have h : Sample.fruits.RowsConform := by decide
  have hzero : 0 < Sample.fruits.width := by decide
  have hone : 1 < Sample.fruits.width := by decide
  have hrange : ¬(0 ≤ (-1 : Int) ∧ (-1 : Int) < Sample.fruits.width) := by decide
  have hshort : (-1 : Int).natAbs < bound maxDigits := Text.Numeral.isShort_iff.mp (by decide)
  obtain ⟨hsort, htwice, herror, -⟩ := orderBy_spec h
  obtain ⟨hanswers, -, hsorted⟩ := hsort 1 hone
  obtain ⟨u, hu, -⟩ := hanswers (Sample.not_mixes_fruits 1)
  obtain ⟨-, -, -, hrows, -⟩ := hsorted u hu
  obtain ⟨hanswers', hsorted'⟩ := htwice 1 hone 0 hzero
  obtain ⟨w, v, hw, hv⟩ := hanswers' (Sample.not_mixes_fruits 1) (Sample.not_mixes_fruits 0)
  obtain ⟨-, -, hrows'⟩ := hsorted' w v hw hv
  refine ⟨h, hzero, hone, ⟨u, hu, ((hrows _).mp ?_).symm⟩, ⟨w, v, hw, hv, ((hrows' _).mp ?_).symm⟩,
    hrange, (herror (-1) hrange).2.1 hshort⟩
  · exact ⟨[([.numeric (some 3), .text (some [])], 2), ([.numeric (some 1), .text none], 3),
      ([.numeric (some 3), .text (some "fig")], 0), ([.numeric (some 1), .text (some "fig")], 4),
      ([.numeric none, .text (some "pear")], 1)], rfl, by decide, by decide, by decide⟩
  · exact ⟨[([.numeric (some 1), .text none], 3), ([.numeric (some 3), .text (some [])], 2),
      ([.numeric (some 1), .text (some "fig")], 4), ([.numeric (some 3), .text (some "fig")], 0),
      ([.numeric none, .text (some "pear")], 1)], rfl, by decide, by decide⟩

/-- A null and the least number of too many digits are not sorted, and a column of that number is
not refused as one that does not exist. -/
theorem not_orderBy_spec :
    (¬∀ (t : Table) (c : Nat), t.WellFormed → c < t.width → ∃ u, orderBy t c = .ok u) ∧
      ¬∀ (t : Table) (column : Int), t.WellFormed → ¬(0 ≤ column ∧ column < t.width) →
        orderBy t column = .error (.columnOutOfRange (.index column)) := by
  constructor
  · intro h
    obtain ⟨u, hu⟩ := h Table.Sample.mixed 0 Table.Sample.wellFormed_mixed (by decide)
    rw [show orderBy Table.Sample.mixed (0 : Nat) = _ from Table.Sample.orderBy_mixed] at hu
    cases hu
  · intro h
    have hrange : ¬(0 ≤ (bound maxDigits : Int) ∧ (bound maxDigits : Int) < (Table.empty []).width) :=
      fun hin => Int.not_lt.mpr hin.1 hin.2
    have hlong := Text.Numeral.isShort_eq_false_iff.mp Text.Numeral.isShort_bound
    have herror := h (.empty []) (bound maxDigits) (Table.wellFormed_empty [] []) hrange
    rw [(orderBy_eq_error hrange).1, Error.noColumn, Error.citing_of_isLong hlong] at herror
    cases herror

end TableAlgebra.Algebra
