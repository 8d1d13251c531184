import TableAlgebra.Runs.Search

/-!
# The runs of a list

A list falls into runs that are in order, or in strictly falling order and then turned round. A
run that is too short takes in the elements after it one by one. Nothing moves until the run at the
start is known, and an element that cannot be compared with those of a run stays where it is. Main
statement: the run at the start and what follows it keep the elements of the list (`keeps_filled`).
-/

namespace TableAlgebra.Runs

variable {α : Type}

/-- The elements that follow, each related to the one before it, and those left. -/
def chain (r : α → α → Option Bool) : α → List α → Option (List α × List α)
  | _, [] => some ([], [])
  | x, y :: ys =>
    (r x y).bind fun isRelated =>
      if isRelated then (chain r y ys).map fun (run, rest) => (y :: run, rest)
      else some ([], y :: ys)

/-- The run at the start of a list, in ascending order, and what follows it. -/
def leading (lt : α → α → Option Bool) (x : α) (xs : List α) : Option (List α × List α) :=
  (anyOf xs.head? (lt · x)).bind fun falling =>
    (chain (fun a b => (lt b a).map (· == falling)) x xs).map fun (run, rest) =>
      (if falling then (x :: run).reverse else x :: run, rest)

/-- Puts elements into a run one by one. -/
def insertAll (lt : α → α → Option Bool) : List α → List α → Except (List α) (List α)
  | run, [] => .ok run
  | run, x :: xs => do insertAll lt (← orLeave (insert lt run x) (run ++ x :: xs)) xs

/-- The run at the start of a list, filled up to a least length. -/
def filled (lt : α → α → Option Bool) (least : Nat) (x : α) (xs : List α) :
    Except (List α) (List α × List α) := do
  let (run, rest) ← orLeave (leading lt x xs) (x :: xs)
  let missing := least - run.length
  let run ← within [] (rest.drop missing) (insertAll lt run (rest.take missing))
  return (run, rest.drop missing)

/-! ### Laws -/

variable {lt : α → α → Option Bool}

theorem append_chain {r : α → α → Option Bool} {x : α} {xs run rest : List α}
    (h : chain r x xs = some (run, rest)) : run ++ rest = xs := by
  induction xs generalizing x run with
  | nil =>
    cases h
    rfl
  | cons y ys ih =>
    obtain ⟨isRelated, _, h⟩ := Option.bind_eq_some_iff.mp h
    cases isRelated
    · cases h
      rfl
    · obtain ⟨c, hc, h⟩ := Option.map_eq_some_iff.mp h
      cases h
      exact congrArg (y :: ·) (ih hc)

theorem isSome_chain {r : α → α → Option Bool} {x : α} {xs : List α}
    (total : ∀ a ∈ x :: xs, ∀ b ∈ x :: xs, (r a b).isSome = true) :
    (chain r x xs).isSome = true := by
  induction xs generalizing x with
  | nil => rfl
  | cons y ys ih =>
    refine isSome_bind (total x (by simp) y (by simp)) fun isRelated => ?_
    split
    · exact isSome_map _ (ih fun a ha b hb =>
        total a (List.mem_cons_of_mem _ ha) b (List.mem_cons_of_mem _ hb))
    · rfl

theorem perm_leading {x : α} {xs run rest : List α} (h : leading lt x xs = some (run, rest)) :
    (run ++ rest).Perm (x :: xs) := by
  obtain ⟨falling, _, h⟩ := Option.bind_eq_some_iff.mp h
  obtain ⟨c, hc, h⟩ := Option.map_eq_some_iff.mp h
  have hx : (x :: c.1) ++ c.2 = x :: xs := congrArg (x :: ·) (append_chain hc)
  cases h
  refine .trans ?_ (.of_eq hx)
  split
  · exact (List.reverse_perm _).append_right _
  · exact .refl _

theorem isSome_leading {x : α} {xs : List α} (total : Comparable lt (x :: xs)) :
    (leading lt x xs).isSome = true := by
  refine isSome_bind (isSome_anyOf fun y hy => ?_) fun falling => ?_
  · exact total y (List.mem_cons_of_mem _ (List.mem_of_head? hy)) x List.mem_cons_self
  · exact isSome_map _ (isSome_chain fun a ha b hb => isSome_map _ (total b hb a ha))

theorem keeps_insertAll (run xs : List α) :
    Keeps lt id (run ++ xs) (insertAll lt run xs) := by
  induction xs generalizing run with
  | nil => exact keeps_ok (.of_eq (List.append_nil run).symm)
  | cons x xs ih =>
    refine keeps_orLeave (.refl _) (fun total => isSome_insert fun y hy => ?_) fun run' h => ?_
    · exact total x (by simp) y (List.mem_append_left _ hy)
    · exact (ih run').of_perm (((perm_insert h).append_right xs).trans List.perm_middle.symm)

/-- The run at the start of a list and what follows it keep the elements. -/
theorem keeps_filled (least : Nat) (x : α) (xs : List α) :
    Keeps lt (fun c => c.1 ++ c.2) (x :: xs) (filled lt least x xs) := by
  refine keeps_orLeave (.refl _) isSome_leading fun c hc => ?_
  have hparts (n : Nat) : c.1 ++ c.2.take n ++ c.2.drop n = c.1 ++ c.2 := by
    rw [List.append_assoc, List.take_append_drop]
  refine (keeps_insertAll ..).bind [] _ ?_ fun run _ hrun => keeps_ok ?_
  · exact (List.Perm.of_eq (hparts _)).trans (perm_leading hc)
  · exact ((hrun.append_right _).trans (.of_eq (hparts _))).trans (perm_leading hc)

theorem filled_of_none {least : Nat} {x y : α} {xs : List α} (h : lt y x = none) :
    filled lt least x (y :: xs) = .error (x :: y :: xs) := by
  simp [filled, leading, anyOf, h, orLeave, bind, Except.bind]

theorem length_rest_le {least : Nat} {x : α} {xs run rest : List α}
    (h : filled lt least x xs = .ok (run, rest)) : rest.length ≤ xs.length := by
  unfold filled at h
  cases hc : leading lt x xs with
  | none =>
    rw [hc] at h
    cases h
  | some c =>
    obtain ⟨falling, _, hl⟩ := Option.bind_eq_some_iff.mp hc
    obtain ⟨d, hd, hl⟩ := Option.map_eq_some_iff.mp hl
    have hlength := congrArg List.length (append_chain hd)
    rw [List.length_append] at hlength
    have hrest : c.2 = d.2 := by rw [← hl]
    rw [hc] at h
    revert h
    simp only [orLeave, bind, Except.bind]
    cases within [] (c.2.drop (least - c.1.length))
        (insertAll lt c.1 (c.2.take (least - c.1.length))) with
    | error e => exact fun h => nomatch h
    | ok run' =>
      intro h
      cases h
      rw [List.length_drop, hrest]
      omega

end TableAlgebra.Runs
