import TableAlgebra.Text.Printable

/-!
# Quoted text

A text between quotes, with everything that would not show written as an escape. Single quotes are
used, unless the text holds a single quote and no double one.
-/

namespace TableAlgebra.Text

/-- The lower-case hexadecimal digits of a number, padded with zeros to a width. -/
def hex (width n : Nat) : Text :=
  let ds := Nat.toDigits 16 n
  (List.replicate (width - ds.length) '0' ++ ds).map .char

/-- How a code point stands between the given quotes. -/
def escape (quote p : Point) : Text :=
  if p = quote || p = '\\' then ['\\', p]
  else if p = '\t' then ['\\', 't']
  else if p = '\n' then ['\\', 'n']
  else if p = '\r' then ['\\', 'r']
  else if isPrintable p then [p]
  else if p.number < 0x100 then '\\' :: 'x' :: hex 2 p.number
  else if p.number < 0x10000 then '\\' :: 'u' :: hex 4 p.number
  else '\\' :: 'U' :: hex 8 p.number

/-- The quote that a text is written in. -/
def quoteFor (t : Text) : Point :=
  if t.contains '\x27' && !t.contains '\x22' then '\x22' else '\x27'

def quote (t : Text) : Text :=
  let q := quoteFor t
  q :: t.flatMap (escape q) ++ [q]

theorem length_hex_le (width n : Nat) : width ≤ (hex width n).length := by
  rw [hex, List.length_map, List.length_append, List.length_replicate]
  omega

end TableAlgebra.Text
