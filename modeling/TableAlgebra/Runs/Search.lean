import TableAlgebra.Runs.Attempt

/-!
# Searching a run

The number of elements of a run that come before a given one, when `p i` says whether the `i`-th
does. Halving looks in the middle of what is left; galloping starts at a hint and widens its steps
before it halves. On a run in order both find the one place where `p` ceases to hold. On any other
run the place depends on where they look. A search fails where it looks at an element that cannot be
compared with the given one.
-/

namespace TableAlgebra.Runs

variable {α : Type}

/-- Halves the range from `lo` to `hi` down to the place where `p` ceases to hold. -/
def halve (p : Nat → Option Bool) (lo hi : Nat) : Option Nat :=
  if lo < hi then
    let mid := lo + (hi - lo) / 2
    (p mid).bind fun holds => if holds then halve p (mid + 1) hi else halve p lo mid
  else some hi
termination_by hi - lo

/-- Steps of 1, 3, 7 and so on while `p` holds: the last that held, and the first that did not or
the limit. -/
def stride (p : Nat → Option Bool) (limit held step : Nat) : Option (Nat × Nat) :=
  if step < limit then
    (p step).bind fun holds =>
      if holds then stride p limit step (2 * step + 1) else some (held, step)
  else some (held, limit)
termination_by limit - step

/-- Gallops away from the hint in a run of length `n`, then halves the last step. -/
def gallop (p : Nat → Option Bool) (n hint : Nat) : Option Nat :=
  (p hint).bind fun holds =>
    if holds then
      (stride (fun d => p (hint + d)) (n - hint) 0 1).bind fun (held, step) =>
        halve p (hint + held + 1) (hint + step)
    else
      (stride (fun d => (p (hint - d)).map (!·)) (hint + 1) 0 1).bind fun (held, step) =>
        halve p (hint + 1 - step) (hint - held)

/-- The number of elements before the place that galloping finds from the front. -/
def countFront (before : α → Option Bool) (run : List α) : Option Nat :=
  gallop (fun i => anyOf run[i]? before) run.length 0

/-- The number of elements before the place that galloping finds from the back. -/
def countBack (before : α → Option Bool) (run : List α) : Option Nat :=
  gallop (fun i => anyOf run[i]? before) run.length (run.length - 1)

/-- Puts an element into a run, after those that it is not less than. -/
def insert (lt : α → α → Option Bool) (run : List α) (x : α) : Option (List α) :=
  (halve (fun i => anyOf run[i]? fun y => (lt x y).map (!·)) 0 run.length).map fun i =>
    run.take i ++ x :: run.drop i

/-! ### Laws -/

section
variable {p : Nat → Option Bool} (total : ∀ i, (p i).isSome = true)
include total

theorem isSome_halve (lo hi : Nat) : (halve p lo hi).isSome = true := by
  fun_induction halve p lo hi with
  | case1 lo hi h mid ih₁ ih₂ =>
    refine isSome_bind (total mid) fun holds => ?_
    split
    · exact ih₁
    · exact ih₂
  | case2 lo hi h => rfl

theorem isSome_stride (limit held step : Nat) : (stride p limit held step).isSome = true := by
  fun_induction stride p limit held step with
  | case1 held step h ih =>
    refine isSome_bind (total step) fun holds => ?_
    split
    · exact ih
    · rfl
  | case2 held step h => rfl

theorem isSome_gallop (n hint : Nat) : (gallop p n hint).isSome = true := by
  refine isSome_bind (total hint) fun holds => ?_
  split
  · exact isSome_bind (isSome_stride (fun d => total (hint + d)) _ _ _) fun _ =>
      isSome_halve total _ _
  · exact isSome_bind (isSome_stride (fun d => isSome_map _ (total (hint - d))) _ _ _) fun _ =>
      isSome_halve total _ _

end

section
variable {before : α → Option Bool} {run : List α}
  (total : ∀ x ∈ run, (before x).isSome = true)
include total

theorem isSome_along (i : Nat) : (anyOf run[i]? before).isSome = true :=
  isSome_anyOf fun x hx => total x (List.mem_of_getElem? hx)

theorem isSome_countFront : (countFront before run).isSome = true :=
  isSome_gallop (isSome_along total) _ _

theorem isSome_countBack : (countBack before run).isSome = true :=
  isSome_gallop (isSome_along total) _ _

end

theorem isSome_insert {lt : α → α → Option Bool} {run : List α} {x : α}
    (total : ∀ y ∈ run, (lt x y).isSome = true) : (insert lt run x).isSome = true :=
  isSome_map _ (isSome_halve (isSome_along fun y hy => isSome_map _ (total y hy)) _ _)

theorem perm_insert {lt : α → α → Option Bool} {run run' : List α} {x : α}
    (h : insert lt run x = some run') : run'.Perm (x :: run) := by
  obtain ⟨i, _, rfl⟩ := Option.map_eq_some_iff.mp h
  exact List.perm_middle.trans (by rw [List.take_append_drop])

end TableAlgebra.Runs
