import TableAlgebra.Runs.Search

/-!
# Merging two runs

Two neighbouring runs are merged from the front, or from the back if the right one is shorter.
Elements are first taken one at a time; when one run has given enough in a row, galloping finds
out how many to take at once, and goes on as long as that pays. How many are enough is the
patience, which every merge hands on to the next: it falls while galloping pays and rises when it
ends. A comparison that fails ends the merge there, with what is left of the runs after what has
been merged. Main statement: a merge keeps the elements of both runs (`keeps_merge`).
-/

namespace TableAlgebra.Runs

variable {α : Type}

/-- The end from which a merge works. -/
inductive End where
  | front
  | back
  deriving Repr, DecidableEq

/-- Two runs that are being merged, between what has been merged before and after them. -/
structure Merging (α : Type) where
  before : List α
  left : List α
  right : List α
  after : List α

/-- What a merge does next: take one element, with counts of how many in a row each run has given;
take from either run what galloping tells; or take the one element that it compared with. -/
inductive Pace where
  | opening
  | single (lefts rights : Nat)
  | leapLeft
  | afterLeft (lefts : Nat)
  | leapRight (lefts : Nat)
  | afterRight (lefts rights : Nat)
  deriving Repr, DecidableEq

namespace Merging

def elements (m : Merging α) : List α := m.before ++ (m.left ++ m.right) ++ m.after

def takeLeft (m : Merging α) (k : Nat) : End → Merging α
  | .front => { m with before := m.before ++ m.left.take k, left := m.left.drop k }
  | .back =>
    let n := m.left.length - k
    { m with after := m.left.drop n ++ m.after, left := m.left.take n }

def takeRight (m : Merging α) (k : Nat) : End → Merging α
  | .front => { m with before := m.before ++ m.right.take k, right := m.right.drop k }
  | .back =>
    let n := m.right.length - k
    { m with after := m.right.drop n ++ m.after, right := m.right.take n }

/-- What is left of the runs in order, once one of them is used up or is down to the element that
is known to come last. -/
def rest? (m : Merging α) (e : End) : Option (List α) :=
  match e, m.left, m.right with
  | _, l, [] => some l
  | _, [], r => some r
  | .front, [x], r => some (r ++ [x])
  | .back, l, [y] => some (y :: l)
  | _, _, _ => none

/-- The next element of the right run is to be taken before that of the left one. -/
def rightFirst (lt : α → α → Option Bool) (m : Merging α) : End → Option Bool
  | .front => anyOf m.right.head? fun y => anyOf m.left.head? (lt y)
  | .back => (anyOf m.right.getLast? fun y => anyOf m.left.getLast? (lt y)).map (!·)

/-- How many elements of the left run to take before the next of the right one. -/
def leftLeap (lt : α → α → Option Bool) (m : Merging α) : End → Option Nat
  | .front => countFront (fun x => (anyOf m.right.head? (lt · x)).map (!·)) m.left
  | .back =>
    (countBack (fun x => (anyOf m.right.getLast? (lt · x)).map (!·)) m.left).map
      (m.left.length - ·)

/-- How many elements of the right run to take before the next of the left one. -/
def rightLeap (lt : α → α → Option Bool) (m : Merging α) : End → Option Nat
  | .front => countFront (fun y => anyOf m.left.head? (lt y)) m.right
  | .back =>
    (countBack (fun y => anyOf m.left.getLast? (lt y)) m.right).map (m.right.length - ·)

end Merging

def worthwhile : Nat := 7

def firstPatience : Nat := 7

/-- One step of a merge: the runs after it, what to do next and the patience then. -/
def step (lt : α → α → Option Bool) (e : End) (m : Merging α) (patience : Nat) :
    Pace → Option (Merging α × Pace × Nat)
  | .opening =>
    some (match e with
      | .front => m.takeRight 1 e
      | .back => m.takeLeft 1 e, .single 0 0, patience)
  | .single lefts rights =>
    (m.rightFirst lt e).map fun isRight =>
      if isRight then
        (m.takeRight 1 e,
          if patience ≤ rights + 1 then .leapLeft else .single 0 (rights + 1), patience)
      else
        (m.takeLeft 1 e,
          if patience ≤ lefts + 1 then .leapLeft else .single (lefts + 1) 0, patience)
  | .leapLeft => (m.leftLeap lt e).map fun k => (m.takeLeft k e, .afterLeft k, patience)
  | .afterLeft k => some (m.takeRight 1 e, .leapRight k, patience)
  | .leapRight k => (m.rightLeap lt e).map fun j => (m.takeRight j e, .afterRight k j, patience)
  | .afterRight k j =>
    if worthwhile ≤ max k j then some (m.takeLeft 1 e, .leapLeft, max 1 (patience - 1))
    else some (m.takeLeft 1 e, .single 0 0, patience + 1)

/-- Takes steps until what is left is in order. -/
def steps (lt : α → α → Option Bool) (e : End) :
    Nat → Merging α → Nat → Pace → Except (List α) (List α × Nat)
  | 0, m, patience, _ => .ok (m.elements, patience)
  | fuel + 1, m, patience, pace => do
    let (m, next, patienceThen) ← orLeave (step lt e m patience pace) m.elements
    match m.rest? e with
    | some rest => return (m.before ++ rest ++ m.after, patience)
    | none => steps lt e fuel m patienceThen next

/-- Merges two runs of which the first element of the right one and the last of the left one are
out of place. Two steps take at least one element. -/
def mergeInner (lt : α → α → Option Bool) (patience : Nat) (l r : List α) :
    Except (List α) (List α × Nat) :=
  let e := if l.length ≤ r.length then .front else .back
  steps lt e (2 * (l.length + r.length) + 2) ⟨[], l, r, []⟩ patience .opening

/-- Merges two runs and tells the patience afterwards. What is in place already, at the start of
the left run and at the end of the right one, stays. -/
def merge (lt : α → α → Option Bool) (patience : Nat) (l r : List α) :
    Except (List α) (List α × Nat) := do
  let k ← orLeave (countFront (fun x => (anyOf r.head? (lt · x)).map (!·)) l) (l ++ r)
  if (l.drop k).isEmpty then return (l ++ r, patience)
  let n ← orLeave (countBack (fun y => anyOf l.getLast? (lt y)) r) (l ++ r)
  if (r.take n).isEmpty then return (l ++ r, patience)
  let (inner, patience) ← within (l.take k) (r.drop n)
    (mergeInner lt patience (l.drop k) (r.take n))
  return (l.take k ++ inner ++ r.drop n, patience)

/-! ### Laws -/

theorem perm_takeLeft (m : Merging α) (k : Nat) (e : End) :
    (m.takeLeft k e).elements.Perm m.elements := by
  classical
  cases e <;> rw [List.perm_iff_count] <;> intro x <;>
    simp only [Merging.takeLeft, Merging.elements, List.count_append]
  · have h := congrArg (List.count x) (List.take_append_drop k m.left)
    rw [List.count_append] at h
    omega
  · have h := congrArg (List.count x) (List.take_append_drop (m.left.length - k) m.left)
    rw [List.count_append] at h
    omega

theorem perm_takeRight (m : Merging α) (k : Nat) (e : End) :
    (m.takeRight k e).elements.Perm m.elements := by
  classical
  cases e <;> rw [List.perm_iff_count] <;> intro x <;>
    simp only [Merging.takeRight, Merging.elements, List.count_append]
  · have h := congrArg (List.count x) (List.take_append_drop k m.right)
    rw [List.count_append] at h
    omega
  · have h := congrArg (List.count x) (List.take_append_drop (m.right.length - k) m.right)
    rw [List.count_append] at h
    omega

variable {lt : α → α → Option Bool}

theorem perm_step {e : End} {m : Merging α} {patience : Nat} {pace : Pace}
    {s : Merging α × Pace × Nat} (h : step lt e m patience pace = some s) :
    s.1.elements.Perm m.elements := by
  cases pace with
  | opening =>
    cases h
    cases e
    · exact perm_takeRight ..
    · exact perm_takeLeft ..
  | single lefts rights =>
    obtain ⟨isRight, _, rfl⟩ := Option.map_eq_some_iff.mp h
    cases isRight
    · exact perm_takeLeft ..
    · exact perm_takeRight ..
  | leapLeft =>
    obtain ⟨k, _, rfl⟩ := Option.map_eq_some_iff.mp h
    exact perm_takeLeft ..
  | afterLeft k =>
    cases h
    exact perm_takeRight ..
  | leapRight k =>
    obtain ⟨j, _, rfl⟩ := Option.map_eq_some_iff.mp h
    exact perm_takeRight ..
  | afterRight k j =>
    rw [step] at h
    split at h <;> cases h <;> exact perm_takeLeft ..

theorem perm_rest {m : Merging α} {e : End} {rest : List α} (h : m.rest? e = some rest) :
    rest.Perm (m.left ++ m.right) := by
  unfold Merging.rest? at h
  split at h <;> cases h
  · next hr => rw [hr, List.append_nil]
  · next hl _ => rw [hl, List.nil_append]
  · next _ hl _ => rw [hl]; exact List.perm_append_comm
  · next _ hr _ => rw [hr]; exact (List.perm_append_singleton ..).symm

theorem Merging.left_subset (m : Merging α) : m.left ⊆ m.elements := fun _ h =>
  List.mem_append_left _ (List.mem_append_right _ (List.mem_append_left _ h))

theorem Merging.right_subset (m : Merging α) : m.right ⊆ m.elements := fun _ h =>
  List.mem_append_left _ (List.mem_append_right _ (List.mem_append_right _ h))

section
variable {m : Merging α} (total : Comparable lt m.elements) (e : End)
include total

theorem isSome_rightFirst : (m.rightFirst lt e).isSome = true := by
  have hlt {x y : α} (hx : x ∈ m.left) (hy : y ∈ m.right) : (lt y x).isSome = true :=
    total y (m.right_subset hy) x (m.left_subset hx)
  cases e with
  | front =>
    exact isSome_anyOf fun y hy => isSome_anyOf fun x hx =>
      hlt (List.mem_of_head? hx) (List.mem_of_head? hy)
  | back =>
    exact isSome_map _ (isSome_anyOf fun y hy => isSome_anyOf fun x hx =>
      hlt (List.mem_of_getLast? hx) (List.mem_of_getLast? hy))

theorem isSome_leftLeap : (m.leftLeap lt e).isSome = true := by
  have hlt {x y : α} (hx : x ∈ m.left) (hy : y ∈ m.right) : (lt y x).isSome = true :=
    total y (m.right_subset hy) x (m.left_subset hx)
  cases e with
  | front =>
    exact isSome_countFront fun x hx => isSome_map _ (isSome_anyOf fun y hy =>
      hlt hx (List.mem_of_head? hy))
  | back =>
    exact isSome_map _ (isSome_countBack fun x hx => isSome_map _ (isSome_anyOf fun y hy =>
      hlt hx (List.mem_of_getLast? hy)))

theorem isSome_rightLeap : (m.rightLeap lt e).isSome = true := by
  have hlt {x y : α} (hx : x ∈ m.left) (hy : y ∈ m.right) : (lt y x).isSome = true :=
    total y (m.right_subset hy) x (m.left_subset hx)
  cases e with
  | front =>
    exact isSome_countFront fun y hy => isSome_anyOf fun x hx =>
      hlt (List.mem_of_head? hx) hy
  | back =>
    exact isSome_map _ (isSome_countBack fun y hy => isSome_anyOf fun x hx =>
      hlt (List.mem_of_getLast? hx) hy)

theorem isSome_step (patience : Nat) (pace : Pace) : (step lt e m patience pace).isSome = true := by
  cases pace with
  | opening => rfl
  | single lefts rights => exact isSome_map _ (isSome_rightFirst total e)
  | leapLeft => exact isSome_map _ (isSome_leftLeap total e)
  | afterLeft k => rfl
  | leapRight k => exact isSome_map _ (isSome_rightLeap total e)
  | afterRight k j =>
    rw [step]
    split <;> rfl

end

theorem keeps_steps (e : End) (fuel : Nat) (m : Merging α) (patience : Nat) (pace : Pace) :
    Keeps lt Prod.fst m.elements (steps lt e fuel m patience pace) := by
  induction fuel generalizing m patience pace with
  | zero => exact keeps_ok (.refl _)
  | succ fuel ih =>
    refine keeps_orLeave (.refl _) (fun total => isSome_step total e patience pace) fun s hs => ?_
    have hperm := perm_step hs
    dsimp only
    split
    · next h => exact keeps_ok ((((perm_rest h).append_left _).append_right _).trans hperm)
    · exact (ih ..).of_perm hperm

theorem keeps_mergeInner (patience : Nat) (l r : List α) :
    Keeps lt Prod.fst (l ++ r) (mergeInner lt patience l r) := by
  have h : (Merging.mk [] l r []).elements = l ++ r := by
    rw [Merging.elements, List.nil_append, List.append_nil]
  rw [← h]
  exact keeps_steps ..

/-- A merge keeps the elements of both runs. -/
theorem keeps_merge (patience : Nat) (l r : List α) :
    Keeps lt Prod.fst (l ++ r) (merge lt patience l r) := by
  have hsides (total : Comparable lt (l ++ r)) {x y : α} (hx : x ∈ l) (hy : y ∈ r) :
      (lt y x).isSome = true :=
    total y (List.mem_append_right _ hy) x (List.mem_append_left _ hx)
  refine keeps_orLeave (.refl _) (fun total => ?_) fun k _ => ?_
  · exact isSome_countFront fun x hx => isSome_map _ (isSome_anyOf fun y hy =>
      hsides total hx (List.mem_of_head? hy))
  split
  · exact keeps_ok (.refl _)
  refine keeps_orLeave (.refl _) (fun total => ?_) fun n _ => ?_
  · exact isSome_countBack fun y hy => isSome_anyOf fun x hx =>
      hsides total (List.mem_of_getLast? hx) hy
  split
  · exact keeps_ok (.refl _)
  have hparts : l.take k ++ (l.drop k ++ r.take n) ++ r.drop n = l ++ r := by
    rw [← List.append_assoc, List.take_append_drop, List.append_assoc, List.take_append_drop]
  refine (keeps_mergeInner ..).bind _ _ (.of_eq hparts) fun c _ hc => keeps_ok ?_
  exact ((hc.append_left _).append_right _).trans (.of_eq hparts)

end TableAlgebra.Runs
