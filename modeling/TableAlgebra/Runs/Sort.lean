import TableAlgebra.Runs.Merge
import TableAlgebra.Runs.Natural

/-!
# Sorting by merging runs

The runs of a list are merged pairwise, in an order that the places of their boundaries decide:
the midpoints of two neighbouring runs, as fractions of the list, first differ at some binary
place, and runs whose midpoints part late are merged early. Which elements are compared follows
from the list alone, so the result is fixed even where the comparison is not transitive. A run is
merged as soon as it is found, before the next one is looked for, and where a comparison fails the
list stays as far as it has been arranged. Main statement: sorting keeps the elements of the list
(`keeps_sort`).
-/

set_option linter.unusedVariables false

namespace TableAlgebra.Runs

variable {α : Type}

/-- The least length of a run in a list of length `n`: its first six binary digits, rounded up. -/
def leastLength (n : Nat) : Nat :=
  let unit := Nat.pow 2 (n.log2 - 5)
  (n + unit - 1) / unit

/-- The binary place at which the midpoints of two neighbouring runs first differ, when the runs
start after `start` elements of `total`. -/
def boundaryPower (total start left right : Nat) : Nat :=
  let a := 2 * start + left
  let b := a + left + right
  let differ := fun k => a * Nat.pow 2 k / total != b * Nat.pow 2 k / total
  ((List.range total).find? differ).getD total + 1

/-- A run that waits to be merged, with the power of the boundary after it. -/
structure Waiting (α : Type) where
  run : List α
  power : Nat

/-- The runs that wait, the newest first, and the patience of the next merge. -/
structure Stack (α : Type) where
  waiting : List (Waiting α)
  patience : Nat

/-- The elements of the runs that wait, the oldest first. -/
def Stack.elements (s : Stack α) : List α := (s.waiting.reverse.map (·.run)).flatten

/-- Merges a run with those before it, as long as the boundary between them is of a greater
power. -/
def collapse (lt : α → α → Option Bool) (power : Nat) :
    List (Waiting α) → List α → Nat → Except (List α) (Stack α)
  | [], run, patience => .ok ⟨[⟨run, power⟩], patience⟩
  | w :: ws, run, patience =>
    if power < w.power then do
      let (merged, patience) ← within (Stack.elements ⟨ws, patience⟩) []
        (merge lt patience w.run run)
      collapse lt power ws merged patience
    else .ok ⟨⟨run, power⟩ :: w :: ws, patience⟩

/-- Adds the next run of a list of length `total`. -/
def push (lt : α → α → Option Bool) (total : Nat) (s : Stack α) (run : List α) :
    Except (List α) (Stack α) :=
  match s.waiting with
  | [] => .ok { s with waiting := [⟨run, 0⟩] }
  | w :: ws => do
    let start := (ws.flatMap (·.run)).length
    let power := boundaryPower total start w.run.length run.length
    let s ← within [] run (collapse lt power ws w.run s.patience)
    return { s with waiting := ⟨run, 0⟩ :: s.waiting }

/-- Merges all runs, the newest first: the second newest with the shorter of its neighbours. -/
def finish (lt : α → α → Option Bool) (patience : Nat) :
    List (List α) → Except (List α) (List α)
  | [] => .ok []
  | [run] => .ok run
  | [t, s] => (merge lt patience s t).map (·.1)
  | t :: s :: r :: rest =>
    if r.length < t.length then do
      let (merged, patience) ← within rest.reverse.flatten t (merge lt patience r s)
      finish lt patience (t :: merged :: rest)
    else do
      let (merged, patience) ← within (rest.reverse.flatten ++ r) [] (merge lt patience s t)
      finish lt patience (merged :: r :: rest)
termination_by runs => runs.length

/-- Finds the runs of what is left of a list of length `total`, each at least as long as asked but
perhaps the last, and merges them with those that wait. -/
def sortFrom (lt : α → α → Option Bool) (least total : Nat) (s : Stack α) :
    List α → Except (List α) (List α)
  | [] => finish lt s.patience (s.waiting.map (·.run))
  | x :: xs =>
    match h : filled lt least x xs with
    | .error ys => .error (s.elements ++ ys)
    | .ok (run, rest) => do
      let s ← within [] rest (push lt total s run)
      sortFrom lt least total s rest
termination_by xs => xs.length
decreasing_by exact Nat.lt_succ_of_le (length_rest_le h)

/-- The list arranged in ascending order, as far as the comparison has one. -/
def sort (lt : α → α → Option Bool) (xs : List α) : Except (List α) (List α) :=
  sortFrom lt (leastLength xs.length) xs.length ⟨[], firstPatience⟩ xs

/-! ### Laws -/

variable {lt : α → α → Option Bool}

theorem Stack.elements_cons (w : Waiting α) (ws : List (Waiting α)) (patience : Nat) :
    Stack.elements ⟨w :: ws, patience⟩ = Stack.elements ⟨ws, patience⟩ ++ w.run := by
  simp [Stack.elements]

theorem keeps_collapse (power : Nat) (ws : List (Waiting α)) (run : List α) (patience : Nat) :
    Keeps lt Stack.elements (Stack.elements ⟨ws, patience⟩ ++ run)
      (collapse lt power ws run patience) := by
  induction ws generalizing run patience with
  | nil => exact keeps_ok (.of_eq (Stack.elements_cons ..))
  | cons w ws ih =>
    unfold collapse
    split
    · refine (keeps_merge ..).bind _ [] (.of_eq ?_) fun c _ hc => (ih c.1 c.2).of_perm ?_
      · rw [Stack.elements_cons, List.append_nil, List.append_assoc]
      · rw [Stack.elements_cons, List.append_assoc]
        exact hc.append_left _
    · exact keeps_ok (.of_eq (Stack.elements_cons ..))

theorem keeps_push (total : Nat) (s : Stack α) (run : List α) :
    Keeps lt Stack.elements (s.elements ++ run) (push lt total s run) := by
  obtain ⟨waiting, patience⟩ := s
  cases waiting with
  | nil => exact keeps_ok (.of_eq (Stack.elements_cons ..))
  | cons w ws =>
    have helements : Stack.elements ⟨w :: ws, patience⟩ = Stack.elements ⟨ws, patience⟩ ++ w.run :=
      Stack.elements_cons ..
    rw [helements]
    refine (keeps_collapse ..).bind [] run (.refl _) fun c _ hc => keeps_ok ?_
    exact (List.Perm.of_eq (Stack.elements_cons ..)).trans (hc.append_right run)

theorem keeps_finish (patience : Nat) (runs : List (List α)) :
    Keeps lt id runs.reverse.flatten (finish lt patience runs) := by
  fun_induction finish lt patience runs with
  | case1 => exact keeps_ok (.refl _)
  | case2 patience run => exact keeps_ok (.of_eq (by simp))
  | case3 patience t s =>
    have h : Keeps lt Prod.fst (s ++ t) (merge lt patience s t) := keeps_merge ..
    have hperm : (s ++ t).Perm [t, s].reverse.flatten := .of_eq (by simp)
    refine Keeps.of_perm ⟨?_, fun hc => ?_⟩ hperm
    · have := h.perm
      cases hm : merge lt patience s t <;> rw [hm] at this <;> exact this
    · obtain ⟨b, hb⟩ := h.ends hc
      exact ⟨b.1, by rw [hb]; rfl⟩
  | case4 patience t s r rest hlt ih =>
    refine (keeps_merge ..).bind _ _ (.of_eq (by simp)) fun c _ hc => (ih c.1 c.2).of_perm ?_
    simpa using (hc.append_left rest.reverse.flatten).append_right t
  | case5 patience t s r rest hlt ih =>
    refine (keeps_merge ..).bind _ [] (.of_eq (by simp)) fun c _ hc => (ih c.1 c.2).of_perm ?_
    simpa using hc.append_left (rest.reverse.flatten ++ r)

theorem keeps_sortFrom (least total : Nat) (s : Stack α) (xs : List α) :
    Keeps lt id (s.elements ++ xs) (sortFrom lt least total s xs) := by
  fun_induction sortFrom lt least total s xs with
  | case1 s =>
    refine (keeps_finish ..).of_perm (.of_eq ?_)
    rw [Stack.elements, List.append_nil, List.map_reverse]
  | case2 s x xs ys h =>
    have hfilled : Keeps lt _ (x :: xs) (filled lt least x xs) := keeps_filled ..
    rw [h] at hfilled
    obtain ⟨hperm, hends⟩ := hfilled
    refine ⟨hperm.append_left _, fun hc => ?_⟩
    obtain ⟨b, hb⟩ := hends (hc.subset (List.subset_append_right _ _))
    cases hb
  | case3 s x xs run rest h ih =>
    have hfilled : Keeps lt _ (x :: xs) (filled lt least x xs) := keeps_filled ..
    rw [h] at hfilled
    have hperm : (run ++ rest).Perm (x :: xs) := hfilled.perm
    have hall : (s.elements ++ run ++ rest).Perm (s.elements ++ x :: xs) := by
      rw [List.append_assoc]
      exact hperm.append_left _
    refine (keeps_push ..).bind [] rest hall fun c _ hc => (ih c).of_perm ?_
    exact (hc.append_right rest).trans hall

/-- Sorting keeps the elements, and ends if all of them can be compared. -/
theorem keeps_sort (xs : List α) : Keeps lt id xs (sort lt xs) :=
  keeps_sortFrom _ _ ⟨[], firstPatience⟩ xs

/-- Sorting breaks off at once if the first two elements cannot be compared. -/
theorem sort_of_none {x y : α} {xs : List α} (h : lt y x = none) :
    sort lt (x :: y :: xs) = .error (x :: y :: xs) := by
  rw [sort, sortFrom]
  split
  · next ys hf =>
    rw [filled_of_none h] at hf
    cases hf
    rfl
  · next hf =>
    rw [filled_of_none h] at hf
    cases hf

end TableAlgebra.Runs
