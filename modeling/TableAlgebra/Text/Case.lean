import TableAlgebra.Text

/-!
# Upper and lower case of ASCII words

Keywords and tags are ASCII words. A word spells one in any case when its upper-case or lower-case
form is that word, so only the forms that are made of ASCII letters matter here; a character
without such a form stands for itself.
-/

namespace TableAlgebra.Text

/-- The characters beyond ASCII whose upper-case form is made of ASCII letters. -/
def asciiUppers : List (Char × List Char) :=
  [('ß', ['S', 'S']), ('ı', ['I']), ('ſ', ['S']), ('ﬀ', ['F', 'F']), ('ﬁ', ['F', 'I']),
   ('ﬂ', ['F', 'L']), ('ﬃ', ['F', 'F', 'I']), ('ﬄ', ['F', 'F', 'L']), ('ﬅ', ['S', 'T']),
   ('ﬆ', ['S', 'T'])]

/-- The upper-case form of a code point, where it is made of ASCII letters. -/
def upperPoint : Point → Text
  | .char c => ((asciiUppers.lookup c).getD [c.toUpper]).map .char
  | p => [p]

/-- The lower-case form of a code point, where it is an ASCII letter: the Kelvin sign is a `k`. -/
def lowerPoint : Point → Point
  | .char c => if c = '\u212a' then 'k' else c.toLower
  | p => p

def upper (t : Text) : Text := t.flatMap upperPoint

def lower (t : Text) : Text := t.map lowerPoint

theorem upper_append (t u : Text) : upper (t ++ u) = upper t ++ upper u := List.flatMap_append

theorem lower_append (t u : Text) : lower (t ++ u) = lower t ++ lower u := List.map_append

theorem length_lower (t : Text) : (lower t).length = t.length := List.length_map ..

end TableAlgebra.Text
