/-!
# Arranging with comparisons that may fail

Two elements need not be comparable. A computation that comes to such elements breaks off and leaves
its elements in the arrangement that they have by then. `Keeps` says that no element is lost on
either way, and that a computation on comparable elements does not break off; it goes through the
ways in which steps are put together (`Keeps.bind`, `keeps_orLeave`).
-/

namespace TableAlgebra.Runs

variable {α β γ : Type}

/-- Every two elements can be compared. -/
def Comparable (lt : α → α → Option Bool) (xs : List α) : Prop :=
  ∀ x ∈ xs, ∀ y ∈ xs, (lt x y).isSome = true

/-- A test of an element, if there is one. -/
def anyOf (x? : Option α) (p : α → Option Bool) : Option Bool :=
  match x? with
  | some x => p x
  | none => some false

/-- The result of a step that moves nothing, or else the arrangement it leaves. -/
def orLeave (step : Option β) (xs : List α) : Except (List α) β :=
  match step with
  | some b => .ok b
  | none => .error xs

/-- A computation on the elements between others. -/
def within (before after : List α) (x : Except (List α) β) : Except (List α) β :=
  x.mapError fun ys => before ++ ys ++ after

/-- The elements that are left at the end, or where it breaks off. -/
def left (elements : β → List α) : Except (List α) β → List α
  | .ok b => elements b
  | .error xs => xs

structure Keeps (lt : α → α → Option Bool) (elements : β → List α) (xs : List α)
    (x : Except (List α) β) : Prop where
  perm : (left elements x).Perm xs
  ends : Comparable lt xs → ∃ b, x = .ok b

variable {lt : α → α → Option Bool}

theorem Comparable.subset {xs ys : List α} (h : Comparable lt xs) (hs : ys ⊆ xs) :
    Comparable lt ys := fun x hx y hy => h x (hs hx) y (hs hy)

theorem isSome_bind {x : Option β} {f : β → Option γ} (hx : x.isSome = true)
    (hf : ∀ b, (f b).isSome = true) : (x.bind f).isSome = true := by
  cases x with
  | none => cases hx
  | some b => exact hf b

theorem isSome_map {x : Option β} (f : β → γ) (hx : x.isSome = true) :
    (x.map f).isSome = true := Option.isSome_map.trans hx

theorem isSome_anyOf {x? : Option α} {p : α → Option Bool}
    (h : ∀ x, x? = some x → (p x).isSome = true) : (anyOf x? p).isSome = true := by
  cases x? with
  | none => rfl
  | some x => exact h x rfl

section
variable {elements : β → List α} {elements' : γ → List α} {xs : List α}

theorem keeps_ok {b : β} (h : (elements b).Perm xs) : Keeps lt elements xs (.ok b) :=
  ⟨h, fun _ => ⟨b, rfl⟩⟩

theorem Keeps.of_perm {ys : List α} {x : Except (List α) β} (h : Keeps lt elements ys x)
    (hp : ys.Perm xs) : Keeps lt elements xs x :=
  ⟨h.perm.trans hp, fun hc => h.ends (hc.subset hp.subset)⟩

/-- A step that moves nothing, and what is done after it. -/
theorem keeps_orLeave {step : Option β} {ys : List α} {f : β → Except (List α) γ}
    (hp : ys.Perm xs) (hs : Comparable lt xs → step.isSome = true)
    (hf : ∀ b, step = some b → Keeps lt elements' xs (f b)) :
    Keeps lt elements' xs (orLeave step ys >>= f) := by
  cases step with
  | none => exact ⟨hp, fun hc => absurd (hs hc) Bool.false_ne_true⟩
  | some b => exact hf b rfl

/-- A computation on elements between others, and what is done after it. -/
theorem Keeps.bind {ys : List α} {x : Except (List α) β} {f : β → Except (List α) γ}
    (h : Keeps lt elements ys x) (before after : List α)
    (hp : (before ++ ys ++ after).Perm xs)
    (hf : ∀ b, x = .ok b → (elements b).Perm ys → Keeps lt elements' xs (f b)) :
    Keeps lt elements' xs (within before after x >>= f) := by
  have hsub : ys ⊆ xs := fun y hy =>
    hp.subset (List.mem_append_left _ (List.mem_append_right _ hy))
  obtain ⟨hperm, hends⟩ := h
  cases x with
  | error zs =>
    refine ⟨?_, fun hc => ?_⟩
    · exact ((hperm.append_left before).append_right after).trans hp
    · obtain ⟨b, hb⟩ := hends (hc.subset hsub)
      cases hb
  | ok b => exact hf b rfl hperm

end

end TableAlgebra.Runs
