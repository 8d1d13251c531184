import TableAlgebra.Text

/-!
# Lines and fields

Three ways of cutting a text. `splitLines` cuts at every kind of line boundary and drops the
boundaries; `textLines` cuts after each line feed and keeps it; `splitOn` cuts at a separator.
`textLines` loses nothing (`flatten_textLines`), and `splitOn` always gives at least one piece
(`splitOn_ne_nil`).
-/

namespace TableAlgebra.Text

/-- The characters that end a line of a script. -/
def lineBreaks : Text :=
  ['\n', '\r', '\x0b', '\x0c', '\x1c', '\x1d', '\x1e', '\u0085', '\u2028', '\u2029']

def isLineBreak (p : Point) : Bool := lineBreaks.contains p

/-- Puts a code point in front of the first piece. -/
def consHead (p : Point) : List Text → List Text
  | [] => [[p]]
  | t :: ts => (p :: t) :: ts

/-- The lines of a script: a carriage return and the line feed after it are one boundary, and a
boundary at the end starts no further line. -/
def splitLines : Text → List Text
  | [] => []
  | .char '\r' :: .char '\n' :: t => [] :: splitLines t
  | p :: t => if isLineBreak p then [] :: splitLines t else consHead p (splitLines t)

/-- Writes every line end as a line feed. -/
def unifyLineEnds : Text → Text
  | [] => []
  | .char '\r' :: .char '\n' :: t => '\n' :: unifyLineEnds t
  | p :: t => (if p = '\r' then '\n' else p) :: unifyLineEnds t

/-- The lines of a text, each with the line feed that ends it. -/
def textLines : Text → List Text
  | [] => []
  | p :: t => if p = '\n' then [p] :: textLines t else consHead p (textLines t)

/-- The pieces between the separators. -/
def splitOn (sep : Point) : Text → List Text
  | [] => [[]]
  | p :: t => if p = sep then [] :: splitOn sep t else consHead p (splitOn sep t)

/-! ### Laws -/

theorem flatten_consHead (p : Point) (ts : List Text) :
    (consHead p ts).flatten = p :: ts.flatten := by
  cases ts <;> rfl

theorem flatten_textLines (t : Text) : (textLines t).flatten = t := by
  induction t with
  | nil => rfl
  | cons p t ih =>
    rw [textLines]
    split
    · rw [List.flatten_cons, ih, List.singleton_append]
    · rw [flatten_consHead, ih]

theorem consHead_ne_nil (p : Point) (ts : List Text) : consHead p ts ≠ [] := by
  cases ts <;> exact List.cons_ne_nil _ _

theorem splitOn_ne_nil (sep : Point) (t : Text) : splitOn sep t ≠ [] := by
  cases t with
  | nil => exact List.cons_ne_nil _ _
  | cons p t =>
    rw [splitOn]
    split
    · exact List.cons_ne_nil _ _
    · exact consHead_ne_nil _ _

theorem unifyLineEnds_of_no_return {t : Text} (h : .char '\r' ∉ t) : unifyLineEnds t = t := by
  fun_induction unifyLineEnds t with
  | case1 => rfl
  | case2 t ih => simp at h
  | case3 p t _ ih =>
    simp only [List.mem_cons, not_or] at h
    rw [ih h.2, if_neg (Ne.symm h.1)]

end TableAlgebra.Text
