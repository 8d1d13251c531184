import TableAlgebra.Table

/-!
# Catalogs

A catalog binds names to tables, each name to one table at most. Binding or unbinding a name
leaves the others alone.
-/

namespace TableAlgebra

structure Catalog where
  entries : List (Text × Table) := []
  deriving Repr, DecidableEq

namespace Catalog

def find? (c : Catalog) (name : Text) : Option Table := c.entries.lookup name

def unbind (c : Catalog) (name : Text) : Catalog := ⟨c.entries.filter (·.1 != name)⟩

def bind (c : Catalog) (name : Text) (t : Table) : Catalog :=
  ⟨(name, t) :: (c.unbind name).entries⟩

def names (c : Catalog) : List Text := (c.entries.map (·.1)).mergeSort fun a b => a ≤ b

/-! ### Laws -/

theorem find?_unbind_self (c : Catalog) (name : Text) : (c.unbind name).find? name = none := by
  unfold unbind find?
  induction c.entries with
  | nil => rfl
  | cons e es ih =>
    by_cases h : e.1 = name
    · rw [List.filter_cons_of_neg (by simp [h]), ih]
    · have hl : (name == e.1) = false := beq_eq_false_iff_ne.mpr (Ne.symm h)
      rw [List.filter_cons_of_pos (by simp [h]), List.lookup_cons, hl, ih]

theorem find?_unbind_of_ne {m n : Text} (h : m ≠ n) (c : Catalog) :
    (c.unbind n).find? m = c.find? m := by
  unfold unbind find?
  induction c.entries with
  | nil => rfl
  | cons e es ih =>
    by_cases he : e.1 = n
    · have hl : (m == e.1) = false := beq_eq_false_iff_ne.mpr (he ▸ h)
      rw [List.filter_cons_of_neg (by simp [he]), List.lookup_cons, hl, ih]
    · rw [List.filter_cons_of_pos (by simp [he]), List.lookup_cons, List.lookup_cons, ih]

theorem find?_bind_self (c : Catalog) (name : Text) (t : Table) :
    (c.bind name t).find? name = some t := List.lookup_cons_self

theorem find?_bind_of_ne {m n : Text} (h : m ≠ n) (c : Catalog) (t : Table) :
    (c.bind n t).find? m = c.find? m := by
  have hl : (m == n) = false := beq_eq_false_iff_ne.mpr h
  show List.lookup m ((n, t) :: (c.unbind n).entries) = _
  rw [List.lookup_cons, hl]
  exact find?_unbind_of_ne h c

end Catalog

end TableAlgebra
