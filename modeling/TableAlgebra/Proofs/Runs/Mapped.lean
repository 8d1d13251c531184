import TableAlgebra.Runs.Sort

/-!
# Sorting the images of elements

A sort sees of its elements only how they compare. The images of the elements of a list under a
function that leaves all comparisons as they are, undecided ones among them, are therefore taken
through the same steps as the elements, and end or break off in the same arrangement. Each part of
the sort has this law; main statement: `sort_map`.
-/

namespace TableAlgebra.Runs

variable {α β γ δ ε ζ : Type}

/-- A computation on the images of some elements, made from one on the elements. -/
def image (f : α → β) (g : γ → δ) : Except (List α) γ → Except (List β) δ
  | .ok c => .ok (g c)
  | .error xs => .error (xs.map f)

theorem orLeave_map (f : α → β) (g : γ → δ) (step : Option γ) (xs : List α) :
    orLeave (step.map g) (xs.map f) = image f g (orLeave step xs) := by
  cases step <;> rfl

theorem orLeave_image (f : α → β) (step : Option γ) (xs : List α) :
    orLeave step (xs.map f) = image f id (orLeave step xs) := by
  cases step <;> rfl

theorem within_image (f : α → β) (g : γ → δ) (before after : List α) (x : Except (List α) γ) :
    within (before.map f) (after.map f) (image f g x) = image f g (within before after x) := by
  cases x with
  | ok c => rfl
  | error xs => exact congrArg Except.error (by rw [List.map_append, List.map_append])

theorem within_nil_image (f : α → β) (g : γ → δ) (after : List α) (x : Except (List α) γ) :
    within [] (after.map f) (image f g x) = image f g (within [] after x) :=
  within_image f g [] after x

theorem within_image_nil (f : α → β) (g : γ → δ) (before : List α) (x : Except (List α) γ) :
    within (before.map f) [] (image f g x) = image f g (within before [] x) :=
  within_image f g before [] x

theorem image_bind {f : α → β} {g : γ → δ} {h : ε → ζ} {x : Except (List α) γ}
    {k : γ → Except (List α) ε} {k' : δ → Except (List β) ζ}
    (hk : ∀ c, k' (g c) = image f h (k c)) : (image f g x >>= k') = image f h (x >>= k) := by
  cases x with
  | ok c => exact hk c
  | error xs => rfl

theorem anyOf_map (f : α → β) (x? : Option α) (p : β → Option Bool) :
    anyOf (x?.map f) p = anyOf x? fun x => p (f x) := by
  cases x? <;> rfl

/-! ### Searching a run -/

theorem countFront_map (f : α → β) (before : β → Option Bool) (run : List α) :
    countFront before (run.map f) = countFront (fun x => before (f x)) run := by
  simp only [countFront, List.getElem?_map, anyOf_map, List.length_map]

theorem countBack_map (f : α → β) (before : β → Option Bool) (run : List α) :
    countBack before (run.map f) = countBack (fun x => before (f x)) run := by
  simp only [countBack, List.getElem?_map, anyOf_map, List.length_map]

variable {f : α → β} {lt : α → α → Option Bool} {lt' : β → β → Option Bool}
  (hlt : ∀ x y, lt' (f x) (f y) = lt x y)
include hlt

theorem insert_map (run : List α) (x : α) :
    insert lt' (run.map f) (f x) = (insert lt run x).map (List.map f) := by
  simp only [insert, List.getElem?_map, anyOf_map, List.length_map, hlt, Option.map_map]
  congr 1
  funext i
  simp only [Function.comp, List.map_append, List.map_cons, List.map_take, List.map_drop]

/-! ### The runs of a list -/

omit hlt in
theorem chain_map {r : α → α → Option Bool} {r' : β → β → Option Bool}
    (hr : ∀ x y, r' (f x) (f y) = r x y) (x : α) (xs : List α) :
    chain r' (f x) (xs.map f) = (chain r x xs).map (Prod.map (List.map f) (List.map f)) := by
  induction xs generalizing x with
  | nil => rfl
  | cons y ys ih =>
    rw [List.map_cons, chain, chain, hr, ih, Option.map_bind]
    congr 1
    funext isRelated
    cases isRelated
    · rfl
    · simp only [if_true, Option.map_map, Function.comp]
      rfl

theorem leading_map (x : α) (xs : List α) :
    leading lt' (f x) (xs.map f) =
      (leading lt x xs).map (Prod.map (List.map f) (List.map f)) := by
  have hhead : anyOf (xs.map f).head? (lt' · (f x)) = anyOf xs.head? (lt · x) := by
    rw [List.head?_map, anyOf_map]
    simp only [hlt]
  rw [leading, leading, hhead, Option.map_bind]
  congr 1
  funext falling
  rw [chain_map (r := fun a b => (lt b a).map (· == falling)) fun a b => by rw [hlt],
    Option.map_map, Function.comp, Option.map_map]
  congr 1
  funext c
  cases falling
  · rfl
  · exact congrArg (·, c.2.map f) (List.map_reverse (l := x :: c.1)).symm

theorem insertAll_map (run xs : List α) :
    insertAll lt' (run.map f) (xs.map f) = image f (List.map f) (insertAll lt run xs) := by
  induction xs generalizing run with
  | nil => rfl
  | cons x xs ih =>
    rw [List.map_cons, insertAll, insertAll, insert_map hlt, ← List.map_cons, ← List.map_append,
      orLeave_map]
    exact image_bind ih

theorem filled_map (least : Nat) (x : α) (xs : List α) :
    filled lt' least (f x) (xs.map f) =
      image f (Prod.map (List.map f) (List.map f)) (filled lt least x xs) := by
  rw [filled, filled, leading_map hlt, ← List.map_cons, orLeave_map]
  refine image_bind fun c => ?_
  simp only [Prod.map, List.length_map, ← List.map_take, ← List.map_drop]
  rw [insertAll_map hlt, within_nil_image]
  exact image_bind fun run => rfl

/-! ### Merging two runs -/

/-- A merge of the images of the elements. -/
def Merging.map (f : α → β) (m : Merging α) : Merging β :=
  ⟨m.before.map f, m.left.map f, m.right.map f, m.after.map f⟩

section
omit hlt

theorem elements_map (m : Merging α) : (m.map f).elements = m.elements.map f := by
  simp only [Merging.elements, Merging.map, List.map_append]

theorem takeLeft_map (m : Merging α) (k : Nat) (e : End) :
    (m.map f).takeLeft k e = (m.takeLeft k e).map f := by
  cases e <;> simp only [Merging.takeLeft, Merging.map, List.map_append, List.map_take,
    List.map_drop, List.length_map]

theorem takeRight_map (m : Merging α) (k : Nat) (e : End) :
    (m.map f).takeRight k e = (m.takeRight k e).map f := by
  cases e <;> simp only [Merging.takeRight, Merging.map, List.map_append, List.map_take,
    List.map_drop, List.length_map]

theorem rest?_map (m : Merging α) (e : End) :
    (m.map f).rest? e = (m.rest? e).map (List.map f) := by
  obtain ⟨before, left, right, after⟩ := m
  rcases e with _ | _ <;> rcases left with _ | ⟨x, _ | ⟨x', left⟩⟩ <;>
    rcases right with _ | ⟨y, _ | ⟨y', right⟩⟩ <;> simp [Merging.rest?, Merging.map]

end

theorem rightFirst_map (m : Merging α) (e : End) :
    (m.map f).rightFirst lt' e = m.rightFirst lt e := by
  cases e <;> simp only [Merging.rightFirst, Merging.map, List.head?_map, List.getLast?_map,
    anyOf_map, hlt]

theorem leftLeap_map (m : Merging α) (e : End) :
    (m.map f).leftLeap lt' e = m.leftLeap lt e := by
  cases e <;> simp only [Merging.leftLeap, Merging.map, countFront_map, countBack_map,
    List.head?_map, List.getLast?_map, anyOf_map, hlt, List.length_map]

theorem rightLeap_map (m : Merging α) (e : End) :
    (m.map f).rightLeap lt' e = m.rightLeap lt e := by
  cases e <;> simp only [Merging.rightLeap, Merging.map, countFront_map, countBack_map,
    List.head?_map, List.getLast?_map, anyOf_map, hlt, List.length_map]

theorem step_map (e : End) (m : Merging α) (patience : Nat) (pace : Pace) :
    step lt' e (m.map f) patience pace =
      (step lt e m patience pace).map (Prod.map (Merging.map f) id) := by
  cases pace with
  | opening => cases e <;> simp only [step, takeLeft_map, takeRight_map] <;> rfl
  | single lefts rights =>
    rw [step, step, rightFirst_map hlt, Option.map_map]
    congr 1
    funext isRight
    cases isRight
    · exact congrArg (·, _) (takeLeft_map ..)
    · exact congrArg (·, _) (takeRight_map ..)
  | leapLeft =>
    simp only [step, leftLeap_map hlt, takeLeft_map, Option.map_map]
    rfl
  | afterLeft k =>
    simp only [step, takeRight_map]
    rfl
  | leapRight k =>
    simp only [step, rightLeap_map hlt, takeRight_map, Option.map_map]
    rfl
  | afterRight k j =>
    simp only [step, takeLeft_map]
    split <;> rfl

theorem steps_map (e : End) (fuel : Nat) (m : Merging α) (patience : Nat) (pace : Pace) :
    steps lt' e fuel (m.map f) patience pace =
      image f (Prod.map (List.map f) id) (steps lt e fuel m patience pace) := by
  induction fuel generalizing m patience pace with
  | zero => exact congrArg (fun xs => Except.ok (xs, patience)) (elements_map m)
  | succ fuel ih =>
    rw [steps, steps, step_map hlt, elements_map, orLeave_map]
    refine image_bind fun c => ?_
    simp only [Prod.map, rest?_map]
    cases c.1.rest? e with
    | none => exact ih ..
    | some rest =>
      refine congrArg (fun xs => Except.ok (xs, patience)) ?_
      simp only [Merging.map, List.map_append]

theorem mergeInner_map (patience : Nat) (l r : List α) :
    mergeInner lt' patience (l.map f) (r.map f) =
      image f (Prod.map (List.map f) id) (mergeInner lt patience l r) := by
  rw [mergeInner, mergeInner, List.length_map, List.length_map]
  exact steps_map hlt _ _ ⟨[], l, r, []⟩ _ _

theorem merge_map (patience : Nat) (l r : List α) :
    merge lt' patience (l.map f) (r.map f) =
      image f (Prod.map (List.map f) id) (merge lt patience l r) := by
  simp only [merge, countFront_map, countBack_map, List.head?_map, List.getLast?_map, anyOf_map,
    hlt, ← List.map_append]
  rw [orLeave_image]
  refine image_bind fun k => ?_
  simp only [id, ← List.map_drop, List.isEmpty_map]
  split
  · rfl
  rw [orLeave_image]
  refine image_bind fun n => ?_
  simp only [id, ← List.map_take, List.isEmpty_map]
  split
  · rfl
  rw [mergeInner_map hlt, within_image]
  refine image_bind fun c => ?_
  exact congrArg (fun xs => Except.ok (xs, c.2)) (by simp only [Prod.map, List.map_append])

/-! ### Sorting -/

def Waiting.map (f : α → β) (w : Waiting α) : Waiting β := ⟨w.run.map f, w.power⟩

def Stack.map (f : α → β) (s : Stack α) : Stack β := ⟨s.waiting.map (Waiting.map f), s.patience⟩

omit hlt in
theorem Stack.elements_map (s : Stack α) : (s.map f).elements = s.elements.map f := by
  simp only [Stack.elements, Stack.map, List.map_flatten, List.map_map, List.map_reverse]
  rfl

theorem collapse_map (power : Nat) (ws : List (Waiting α)) (run : List α) (patience : Nat) :
    collapse lt' power (ws.map (Waiting.map f)) (run.map f) patience =
      image f (Stack.map f) (collapse lt power ws run patience) := by
  induction ws generalizing run patience with
  | nil => rfl
  | cons w ws ih =>
    rw [List.map_cons, collapse, collapse]
    split
    · next h =>
      rw [if_pos (show power < w.power from h)]
      have helements : (Stack.mk (ws.map (Waiting.map f)) patience).elements =
          (Stack.mk ws patience).elements.map f := Stack.elements_map ⟨ws, patience⟩
      rw [helements, show (w.map f).run = w.run.map f from rfl, merge_map hlt, within_image_nil]
      exact image_bind fun c => ih c.1 c.2
    · next h =>
      rw [if_neg (show ¬power < w.power from h)]
      rfl

theorem push_map (total : Nat) (s : Stack α) (run : List α) :
    push lt' total (s.map f) (run.map f) = image f (Stack.map f) (push lt total s run) := by
  obtain ⟨waiting, patience⟩ := s
  cases waiting with
  | nil => rfl
  | cons w ws =>
    have hstart : ((ws.map (Waiting.map f)).flatMap (·.run)).length =
        (ws.flatMap (·.run)).length := by
      simp only [List.length_flatMap, List.map_map]
      exact congrArg List.sum (List.map_congr_left fun v _ => List.length_map f)
    simp only [push, Stack.map, List.map_cons, hstart, Waiting.map, List.length_map]
    rw [collapse_map hlt, within_nil_image]
    exact image_bind fun c => rfl

theorem finish_map (patience : Nat) (runs : List (List α)) :
    finish lt' patience (runs.map (List.map f)) =
      image f (List.map f) (finish lt patience runs) := by
  fun_induction finish lt patience runs with
  | case1 => rw [List.map_nil, finish, image, List.map_nil]
  | case2 patience run => rw [List.map_cons, List.map_nil, finish, image]
  | case3 patience t s =>
    rw [List.map_cons, List.map_cons, List.map_nil, finish, merge_map hlt]
    cases merge lt patience s t <;> rfl
  | case4 patience t s r rest h ih =>
    simp only [List.map_cons, finish, List.length_map, if_pos h]
    rw [merge_map hlt, ← List.map_reverse, ← List.map_flatten, within_image]
    exact image_bind fun c => ih c.1 c.2
  | case5 patience t s r rest h ih =>
    simp only [List.map_cons, finish, List.length_map, if_neg h]
    rw [merge_map hlt, ← List.map_reverse, ← List.map_flatten, ← List.map_append,
      within_image_nil]
    exact image_bind fun c => ih c.1 c.2

theorem sortFrom_map (least total : Nat) (s : Stack α) (xs : List α) :
    sortFrom lt' least total (s.map f) (xs.map f) =
      image f (List.map f) (sortFrom lt least total s xs) := by
  fun_induction sortFrom lt least total s xs with
  | case1 s =>
    rw [List.map_nil, sortFrom, ← finish_map hlt]
    simp only [Stack.map, List.map_map]
    rfl
  | case2 s x xs ys h =>
    have hfilled : filled lt' least (f x) (xs.map f) = .error (ys.map f) := by
      rw [filled_map hlt, h, image]
    rw [List.map_cons, sortFrom]
    split
    · next hf =>
      cases hfilled.symm.trans hf
      rw [image, List.map_append, Stack.elements_map]
    · next hf => cases hfilled.symm.trans hf
  | case3 s x xs run rest h ih =>
    have hfilled : filled lt' least (f x) (xs.map f) = .ok (run.map f, rest.map f) := by
      rw [filled_map hlt, h, image, Prod.map]
    rw [List.map_cons, sortFrom]
    split
    · next hf => cases hfilled.symm.trans hf
    · next hf =>
      cases hfilled.symm.trans hf
      rw [push_map hlt, within_nil_image]
      exact image_bind ih

/-- A sort of the images is the image of the sort. -/
theorem sort_map (xs : List α) : sort lt' (xs.map f) = image f (List.map f) (sort lt xs) := by
  rw [sort, sort, List.length_map]
  exact sortFrom_map hlt _ _ ⟨[], firstPatience⟩ xs

end TableAlgebra.Runs
