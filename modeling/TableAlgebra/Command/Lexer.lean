import TableAlgebra.Command.Token
import TableAlgebra.Error
import TableAlgebra.Text.Blank
import TableAlgebra.Text.Numeral
import TableAlgebra.Text.Word

/-!
# From text to tokens

Blanks and comments separate tokens; a comment runs from two hyphens to the end of its line. Each
step takes a gap and then one lexeme from the front of the text, and loses nothing: what it takes
and what it leaves make up the text again (`splitGap_append`, `scan_append`).
-/

set_option linter.unusedVariables false

namespace TableAlgebra.Command

/-! ### Gaps -/

/-- The blanks and comments at the front of a text, and the text after them. -/
def splitGap (inComment : Bool) : Text → Text × Text
  | [] => ([], [])
  | c :: cs =>
    if inComment then
      let (gap, rest) := splitGap (c != '\n') cs
      (c :: gap, rest)
    else if Text.isBlank c then
      let (gap, rest) := splitGap false cs
      (c :: gap, rest)
    else if c = '-' && cs.head? = some '-' then
      let (gap, rest) := splitGap true cs
      (c :: gap, rest)
    else ([], c :: cs)

theorem splitGap_append (b : Bool) (cs : Text) :
    (splitGap b cs).1 ++ (splitGap b cs).2 = cs := by
  induction cs generalizing b with
  | nil => rfl
  | cons c cs ih =>
    rw [splitGap]
    split
    · exact congrArg (c :: ·) (ih _)
    · split
      · exact congrArg (c :: ·) (ih _)
      · split
        · exact congrArg (c :: ·) (ih _)
        · rfl

theorem length_splitGap_le (b : Bool) (cs : Text) : (splitGap b cs).2.length ≤ cs.length := by
  have := congrArg List.length (splitGap_append b cs)
  rw [List.length_append] at this
  omega

/-! ### Lexemes -/

/-- A lexeme taken from the front of a text: the characters it takes, and the text after them. -/
structure Scan where
  lexeme : Lexeme
  span : Text
  rest : Text
  deriving Repr, DecidableEq

/-- The character may stand in a word after its first one. -/
def isWordPart (c : Text.Point) : Bool :=
  Text.isWordChar c || c = '.' || c = '/' || c = '\\' || c = '-'

def isLetter (c : Text.Point) : Bool := c.char?.any Char.isAlpha

/-- A word starts here: with an ASCII letter, a low line, a digit, or a minus before a digit. -/
def startsWord (c : Text.Point) (cs : Text) : Bool :=
  isLetter c || c = '_' || Text.isDigit c || (c = '-' && cs.head?.any Text.isDigit)

/-- The lexeme that a word is: an integer, a keyword or a name. -/
def ofWord (w : Text) : Except Error Lexeme :=
  match Text.Numeral.ofWord? w with
  | some n => (n.value.mapError Error.tooManyDigits).map (.integer · w)
  | none =>
    match Keyword.ofWord? w with
    | some k => .ok (.keyword k w)
    | none => .ok (.word w)

/-- The longest symbol at the front of a text. -/
def splitSymbol? : Text → Option (Symbol × Text)
  | .char '=' :: .char '=' :: cs => some (.equals, cs)
  | .char '<' :: .char '=' :: cs => some (.lessEquals, cs)
  | .char '>' :: .char '=' :: cs => some (.greaterEquals, cs)
  | .char '=' :: cs => some (.assign, cs)
  | .char '<' :: cs => some (.lessThan, cs)
  | .char '>' :: cs => some (.greaterThan, cs)
  | .char '(' :: cs => some (.lparen, cs)
  | .char ')' :: cs => some (.rparen, cs)
  | .char ',' :: cs => some (.comma, cs)
  | .char ';' :: cs => some (.semicolon, cs)
  | _ => none

/-- A quoted text after its opening quote: its value, the characters it takes, closing quote
included, and the text after them. -/
structure Closing where
  value : Text
  span : Text
  rest : Text
  deriving Repr, DecidableEq

/-- Puts characters in front of a quoted text that stand for `c`. -/
def Closing.push (c : Text.Point) (span : Text) (q : Closing) : Closing :=
  ⟨c :: q.value, span ++ q.span, q.rest⟩

/-- Reads up to the closing quote. A backslash before the quote makes it part of the text. -/
def closeQuote (q : Text.Point) : Text → Option Closing
  | [] => none
  | [c] => if c = q then some ⟨[], [c], []⟩ else none
  | c :: d :: cs =>
    if c = q then some ⟨[], [c], d :: cs⟩
    else if c = '\\' && d = q then (closeQuote q cs).map (.push d [c, d])
    else (closeQuote q (d :: cs)).map (.push c [c])

/-- Takes one lexeme from the text that starts with `c`; `p` is the place of `c`. -/
def scan (p : Place) (c : Text.Point) (cs : Text) : Except Error Scan :=
  if c = '\x22' || c = '\x27' then
    match closeQuote c cs with
    | some t => .ok ⟨.quoted t.value, c :: t.span, t.rest⟩
    | none => .error (.command .unterminated p)
  else if startsWord c cs then
    (ofWord (c :: cs.takeWhile isWordPart)).map fun l =>
      ⟨l, c :: cs.takeWhile isWordPart, cs.dropWhile isWordPart⟩
  else
    match splitSymbol? (c :: cs) with
    | some (s, r) => .ok ⟨.symbol s, s.text, r⟩
    | none => .error (.command (.illegal c) p)

theorem closeQuote_append {q : Text.Point} {cs : Text} {t : Closing}
    (h : closeQuote q cs = some t) : t.span ++ t.rest = cs := by
  fun_induction closeQuote q cs generalizing t with
  | case1 => cases h
  | case2 => cases h; rfl
  | case3 => cases h
  | case4 => cases h; rfl
  | case5 c d cs _ _ ih =>
    obtain ⟨u, hu, rfl⟩ := Option.map_eq_some_iff.mp h
    exact congrArg (c :: d :: ·) (ih hu)
  | case6 c d cs _ _ ih =>
    obtain ⟨u, hu, rfl⟩ := Option.map_eq_some_iff.mp h
    exact congrArg (c :: ·) (ih hu)

theorem splitSymbol?_append {cs r : Text} {s : Symbol} (h : splitSymbol? cs = some (s, r)) :
    s.text ++ r = cs := by
  unfold splitSymbol? at h
  split at h <;> cases h <;> rfl

theorem scan_append {p : Place} {c : Text.Point} {cs : Text} {t : Scan} (h : scan p c cs = .ok t) :
    t.span ++ t.rest = c :: cs := by
  unfold scan at h
  split at h
  · split at h
    · next hq =>
      cases h
      exact congrArg (c :: ·) (closeQuote_append hq)
    · cases h
  · split at h
    · obtain ⟨l, _, rfl⟩ := map_eq_ok.mp h
      exact congrArg (c :: ·) List.takeWhile_append_dropWhile
    · split at h
      · next hs =>
        cases h
        exact splitSymbol?_append hs
      · cases h

theorem Symbol.text_ne_nil (s : Symbol) : s.text ≠ [] := by cases s <;> decide

theorem scan_span_ne_nil {p : Place} {c : Text.Point} {cs : Text} {t : Scan}
    (h : scan p c cs = .ok t) : t.span ≠ [] := by
  unfold scan at h
  split at h
  · split at h
    · cases h
      exact List.cons_ne_nil _ _
    · cases h
  · split at h
    · obtain ⟨l, _, rfl⟩ := map_eq_ok.mp h
      exact List.cons_ne_nil _ _
    · split at h
      · cases h
        exact Symbol.text_ne_nil _
      · cases h

theorem length_scan_rest_le {p : Place} {c : Text.Point} {cs : Text} {t : Scan}
    (h : scan p c cs = .ok t) : t.rest.length ≤ cs.length := by
  have e := congrArg List.length (scan_append h)
  have n := List.length_pos_iff.mpr (scan_span_ne_nil h)
  rw [List.length_append, List.length_cons] at e
  omega

/-! ### Texts -/

/-- The tokens of a text, and the place of its end. -/
structure Tokens where
  list : List Token
  stop : Place
  deriving Repr, DecidableEq

/-- The tokens of a text that starts at a place. -/
def tokensFrom (p : Place) (cs : Text) : Except Error Tokens :=
  match hg : splitGap false cs with
  | (gap, []) => .ok ⟨[], p.after gap⟩
  | (gap, c :: rest) =>
    match hs : scan (p.after gap) c rest with
    | .error e => .error e
    | .ok t =>
      (tokensFrom ((p.after gap).after t.span) t.rest).map fun ts =>
        ⟨⟨t.lexeme, p.after gap⟩ :: ts.list, ts.stop⟩
  termination_by cs.length
  decreasing_by
    have h₁ := length_splitGap_le false cs
    have h₂ := length_scan_rest_le hs
    rw [hg, List.length_cons] at h₁
    omega

def tokens (text : Text) : Except Error Tokens := tokensFrom .start text

end TableAlgebra.Command
