import TableAlgebra.Proofs.Command.Lexemes

/-!
# Texts in quotes

A backslash makes the quote after it a part of the text, and is itself a part of it before anything
else. So a run of backslashes stands for itself unless a quote follows, and a text that ends in a
backslash has no written form: the backslash would take the closing quote with it. Every other text
has just one for each kind of quote, and the lexer goes on right behind it.

* `closeQuote_eq_some`     what is read up to the closing quote;
* `scan_eq_quoted`         the lexeme that starts with a quote;
* `tokensFrom_inQuotes`    the tokens of a text that starts with one in quotes;
* `tokens_inQuotes`        which texts can be read, and from what.
-/

namespace TableAlgebra.Command

theorem closeQuote_eq_some {q : Text.Point} (hq : q ≠ '\\') {cs : Text} {t : Closing} :
    closeQuote q cs = some t ↔ t.value.getLast? ≠ some (.char '\\') ∧
      t.span = escape q t.value ++ [q] ∧ t.span ++ t.rest = cs := by
  constructor
  · intro h
    exact ⟨getLast?_of_closeQuote hq h, closeQuote_span h, closeQuote_append h⟩
  · obtain ⟨value, span, rest⟩ := t
    rintro ⟨hlast, hspan, happend⟩
    dsimp only at hlast hspan happend
    rw [← happend, hspan, List.append_assoc]
    exact closeQuote_escape hq hlast rest

section
variable {q : Text.Point} (quote : q = '\x22' ∨ q = '\x27')
include quote

theorem ne_backslash_of_quote : q ≠ '\\' := by
  rcases quote with rfl | rfl <;> decide

/-- A lexeme that starts with a quote is a text between two of them, with a backslash before each
quote of its own. -/
theorem scan_eq_quoted {p : Place} {cs : Text} {t : Scan} :
    scan p q cs = .ok t ↔ ∃ v : Text, v.getLast? ≠ some (.char '\\') ∧ t.lexeme = .quoted v ∧
      t.span = q :: (escape q v ++ [q]) ∧ t.span ++ t.rest = q :: cs := by
  have hq := ne_backslash_of_quote quote
  have hquote : (q = '\x22' || q = '\x27') = true := by simpa using quote
  rw [scan, if_pos hquote]
  constructor
  · intro h
    split at h
    · next u hu =>
      obtain ⟨hlast, hspan, happend⟩ := (closeQuote_eq_some hq).mp hu
      cases h
      exact ⟨u.value, hlast, rfl, congrArg (q :: ·) hspan, congrArg (q :: ·) happend⟩
    · cases h
  · obtain ⟨lexeme, span, rest⟩ := t
    rintro ⟨v, hlast, hlexeme, hspan, happend⟩
    dsimp only at hlexeme hspan happend
    subst hlexeme hspan
    have hclose : closeQuote q cs = some ⟨v, escape q v ++ [q], rest⟩ :=
      (closeQuote_eq_some hq).mpr ⟨hlast, rfl, (List.cons.inj happend).2⟩
    rw [hclose]

theorem tokensFrom_inQuotes {v : Text} (last : v.getLast? ≠ some (.char '\\')) (p : Place)
    (rest : Text) :
    tokensFrom p (q :: (escape q v ++ q :: rest)) =
      (tokensFrom (p.after (q :: (escape q v ++ [q]))) rest).map fun ts =>
        ⟨⟨.quoted v, p⟩ :: ts.list, ts.stop⟩ := by
  have hspells : Spells (q :: (escape q v ++ [q])) (.quoted v) := .quoted quote last
  have hstop : (Lexeme.quoted v).Stops rest := trivial
  have htokens := hspells.tokensFrom hstop p
  rwa [List.cons_append, List.append_assoc, List.singleton_append] at htokens

/-- A text can be read in quotes, as the first token or as a later one, just if it does not end in a
backslash. Between quotes, with a backslash before each quote of its own, it is then the next token
wherever the lexer is, and the lexer goes on with what comes behind the closing quote. -/
theorem tokens_inQuotes (v : Text) :
    ((∃ p cs t, scan p q cs = .ok t ∧ t.lexeme = .quoted v) ↔ v.getLast? ≠ some (.char '\\')) ∧
    ((∃ cs ts, tokens (q :: cs) = .ok ts ∧ .quoted v ∈ ts.lexemes) ↔
      v.getLast? ≠ some (.char '\\')) ∧
    (v.getLast? ≠ some (.char '\\') → ∀ p rest,
      tokensFrom p (q :: (escape q v ++ q :: rest)) =
        (tokensFrom (p.after (q :: (escape q v ++ [q]))) rest).map fun ts =>
          ⟨⟨.quoted v, p⟩ :: ts.list, ts.stop⟩) := by
  refine ⟨⟨?_, fun last => ?_⟩, ⟨?_, fun last => ?_⟩, fun last p rest =>
    tokensFrom_inQuotes quote last p rest⟩
  · rintro ⟨p, cs, t, hscan, hlexeme⟩
    obtain ⟨w, hlast, hw, -⟩ := (scan_eq_quoted quote).mp hscan
    rw [hlexeme, Lexeme.quoted.injEq] at hw
    rwa [hw]
  · refine ⟨.start, escape q v ++ [q], ⟨.quoted v, q :: (escape q v ++ [q]), []⟩, ?_, rfl⟩
    exact (scan_eq_quoted quote).mpr ⟨v, last, rfl, rfl, List.append_nil _⟩
  · rintro ⟨cs, ts, hts, hmem⟩
    exact isReadable_quoted.mp ((lexesTo_of_tokensFrom hts).isReadable _ hmem)
  · have hgap : splitGap false [] = ([], []) := rfl
    have htokens := tokensFrom_inQuotes quote last .start []
    rw [tokensFrom_of_gap hgap] at htokens
    exact ⟨_, _, htokens, List.mem_cons_self⟩

end

/-- The first backslash stands for itself, the second is there for the quote. -/
theorem tokens_inQuotes_sample :
    ((.char '\x27' : Text.Point) = '\x22' ∨ (.char '\x27' : Text.Point) = '\x27') ∧
      List.getLast? ("a\\'b" : Text) ≠ some (.char '\\') ∧
      tokensFrom .start "'a\\\\'b' x" =
        (tokensFrom ⟨1, 8⟩ " x").map fun ts => ⟨⟨.quoted "a\\'b", .start⟩ :: ts.list, ts.stop⟩ := by
  have last : List.getLast? ("a\\'b" : Text) ≠ some (.char '\\') := by decide
  exact ⟨Or.inr rfl, last, (tokens_inQuotes (Or.inr rfl) "a\\'b").2.2 last .start " x"⟩

end TableAlgebra.Command
