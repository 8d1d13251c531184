import TableAlgebra.Text.Class

/-!
# Blank characters

White space of every kind: the separators, and the control characters that move the print position
or separate records.
-/

namespace TableAlgebra.Text

def blankRanges : List (Nat × Nat) :=
  [(9, 13), (28, 32), (133, 133), (160, 160), (5760, 5760), (8192, 8202), (8232, 8233),
   (8239, 8239), (8287, 8287), (12288, 12288)]

def isBlank (p : Point) : Bool := inRanges blankRanges p

/-- Drops the code points of a class from the end. -/
def dropEndWhile (p : Point → Bool) (t : Text) : Text := (t.reverse.dropWhile p).reverse

def strip (t : Text) : Text := dropEndWhile isBlank (t.dropWhile isBlank)

theorem isBlank_of_isWhitespace {c : Char} (h : c.isWhitespace = true) : isBlank c = true := by
  simp only [Char.isWhitespace, Bool.or_eq_true, decide_eq_true_eq] at h
  rcases h with ((rfl | rfl) | rfl) | rfl <;> decide

end TableAlgebra.Text
