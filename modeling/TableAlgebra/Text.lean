import TableAlgebra.Text.Point

/-!
# Texts

A text is a list of code points. The text of a string has no surrogate in it, and gives the string
back (`string?_ofString`).
-/

namespace TableAlgebra

abbrev Text := List Text.Point

namespace Text

def ofString (s : String) : Text := s.toList.map .char

instance : Coe String Text := ⟨ofString⟩

/-- The string of a text, if no surrogate is in it. -/
def string? (t : Text) : Option String := (t.mapM Point.char?).map String.ofList

def ofNat (n : Nat) : Text := ofString (toString n)

def ofInt (n : Int) : Text := ofString (toString n)

def joined (separator : Text) (ts : List Text) : Text := separator.intercalate ts

/-! ### Laws -/

theorem mapM_char?_map_char (cs : List Char) : (cs.map Point.char).mapM Point.char? = some cs := by
  induction cs with
  | nil => rfl
  | cons c cs ih => rw [List.map_cons, List.mapM_cons, ih]; rfl

theorem string?_ofString (s : String) : (ofString s).string? = some s := by
  rw [string?, ofString, mapM_char?_map_char, Option.map_some, String.ofList_toList]

theorem ofString_append (s t : String) : ofString (s ++ t) = ofString s ++ ofString t := by
  rw [ofString, String.toList_append, List.map_append]
  rfl

theorem ofNat_eq_map (n : Nat) : ofNat n = (Nat.toDigits 10 n).map .char := by
  rw [ofNat, ofString, Nat.toString_eq_repr, Nat.toList_repr]

end Text

end TableAlgebra
