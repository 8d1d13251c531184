import TableAlgebra.Text.Blank
import TableAlgebra.Text.Case

/-!
# Kinds and schemas

A column holds integers or texts. A schema lists the kinds of a table's columns.
-/

namespace TableAlgebra

inductive Kind where
  | numeric
  | text
  deriving Repr, DecidableEq

abbrev Schema := List Kind

def Kind.tag : Kind → Text
  | .numeric => "int"
  | .text => "string"

/-- The kind that a tag declares, in any case and between blanks. -/
def Kind.ofTag? (tag : Text) : Option Kind :=
  let word := tag.strip.lower
  if word = Kind.tag .numeric then some .numeric
  else if word = Kind.tag .text then some .text
  else none

theorem Kind.ofTag?_tag (k : Kind) : Kind.ofTag? k.tag = some k := by
  cases k <;> decide +kernel

theorem Kind.tag_injective {k l : Kind} (h : k.tag = l.tag) : k = l := by
  have := congrArg Kind.ofTag? h
  rw [ofTag?_tag, ofTag?_tag] at this
  exact Option.some.inj this

end TableAlgebra
