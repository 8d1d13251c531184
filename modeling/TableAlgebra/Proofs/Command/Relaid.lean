import TableAlgebra.Proofs.Command.Alike
import TableAlgebra.Proofs.Command.Blanks

/-!
# Layout and the case of keywords

What stands between the lexemes of a command does not matter, as long as a blank comes after each
lexeme; nor does the case of its keywords. A text with other blanks and comments, and with keywords
in other cases, has the same tokens, and the parser answers alike.

* `IsGap`, `IsLastGap`     blanks and comments, between lexemes and at the end;
* `Cut text parts`         the lexemes of a text, each with its characters;
* `Relaid b parts text`    a text of the same parts with other gaps and other cases;
* `Relaid.lexesTo`         its lexemes are alike;
* `statement_relaid`       its tokens, and what the parser answers.
-/

namespace TableAlgebra.Command

open Text (Numeral)

/-! ### Gaps -/

/-- Blanks, and comments up to the end of their lines. -/
inductive IsGap : Text → Prop
  | nil : IsGap []
  | blank {c : Text.Point} {gap : Text} (hc : Text.isBlank c = true) (others : IsGap gap) :
      IsGap (c :: gap)
  | comment {note gap : Text} (line : .char '\n' ∉ note) (others : IsGap gap) :
      IsGap (("--" : Text) ++ (note ++ .char '\n' :: gap))

/-- A gap at the end of a text, where the last comment may go on to the end. -/
inductive IsLastGap : Text → Prop
  | gap {gap : Text} (h : IsGap gap) : IsLastGap gap
  | comment {gap note : Text} (h : IsGap gap) (line : .char '\n' ∉ note) :
      IsLastGap (gap ++ (("--" : Text) ++ note))

theorem splitGap_dashes (cs : Text) :
    (splitGap false (("--" : Text) ++ cs)).2 = (splitGap true cs).2 := by
  have hdash : Text.isBlank (.char '-') = false := by decide
  show (splitGap false (.char '-' :: .char '-' :: cs)).2 = _
  rw [splitGap, if_neg Bool.false_ne_true, hdash, if_neg Bool.false_ne_true]
  rfl

theorem splitGap_note {note : Text} (line : .char '\n' ∉ note) (cs : Text) :
    (splitGap true (note ++ .char '\n' :: cs)).2 = (splitGap false cs).2 := by
  induction note with
  | nil => rfl
  | cons c note ih =>
    have hc : (c != .char '\n') = true := bne_iff_ne.mpr fun e => line (e ▸ List.mem_cons_self)
    rw [List.cons_append, splitGap, if_pos rfl, hc]
    exact ih fun hm => line (List.mem_cons_of_mem _ hm)

theorem IsGap.splitGap {gap : Text} (h : IsGap gap) (cs : Text) :
    (splitGap false (gap ++ cs)).2 = (splitGap false cs).2 := by
  induction h with
  | nil => rfl
  | @blank c gap hc _ ih =>
    rw [List.cons_append, Command.splitGap, if_neg Bool.false_ne_true, if_pos hc]
    exact ih
  | @comment note gap line _ ih =>
    rw [List.append_assoc, List.append_assoc, splitGap_dashes, List.cons_append, splitGap_note line,
      ih]

theorem IsLastGap.splitGap {gap : Text} (h : IsLastGap gap) : (splitGap false gap).2 = [] := by
  cases h with
  | gap h =>
    have hsplit := h.splitGap []
    rwa [List.append_nil] at hsplit
  | comment h line => rw [h.splitGap, splitGap_dashes, splitGap_comment line]

/-! ### Keywords in other cases -/

theorem upperPoint_of_isDigit {c : Text.Point} (h : Text.isDigit c = true) :
    Text.upperPoint c = [c] := by
  cases c with
  | surrogate n => rfl
  | char c =>
    have hspecial : ∀ e ∈ Text.asciiUppers, Text.isDigit (.char e.1) = false := by decide +kernel
    have hnone : Text.asciiUppers.lookup c = none := by
      rw [List.lookup_eq_none_iff]
      intro e he
      rw [bne_iff_ne]
      rintro rfl
      exact Bool.false_ne_true ((hspecial e he).symm.trans h)
    have hranges : ∀ z ∈ Text.zeros, z + 9 < 97 ∨ 122 < z := by decide
    have hlower : ¬('a'.val ≤ c.val ∧ c.val ≤ 'z'.val) := by
      rintro ⟨hlow, hhigh⟩
      rw [UInt32.le_iff_toNat_le] at hlow hhigh
      have hlow : 97 ≤ c.toNat := hlow
      have hhigh : c.toNat ≤ 122 := hhigh
      obtain ⟨d, hd⟩ := Option.isSome_iff_exists.mp h
      obtain ⟨z, hz, -⟩ := Option.map_eq_some_iff.mp hd
      have hbounds := List.find?_some hz
      have hnumber : (Text.Point.char c).number = c.toNat := rfl
      simp only [hnumber, Bool.and_eq_true, decide_eq_true_eq] at hbounds
      have hrange := hranges z (List.mem_of_find?_eq_some hz)
      omega
    have hupper : c.toUpper = c := dif_neg hlower
    show ((Text.asciiUppers.lookup c).getD [c.toUpper]).map Text.Point.char = _
    rw [hnone, Option.getD_none, hupper]
    rfl

/-- Upper case takes no digit and no minus to a letter, so no keyword is an integer. -/
theorem numeral_of_keyword {w : Text} {k : Keyword} (h : Keyword.ofWord? w = some k) :
    Numeral.ofWord? w = none := by
  have hwords : ∀ e ∈ Keyword.words, ∀ c ∈ e.1.head?, c ≠ '-' ∧ Text.isDigit c = false := by
    decide +kernel
  obtain ⟨before, after, hmem, -⟩ := List.lookup_eq_some_iff.mp h
  have hupper := hwords (w.upper, k) (by rw [hmem]; simp)
  cases w with
  | nil => rfl
  | cons c w =>
    by_cases hc : c = '-'
    · exact absurd rfl (hupper '-' (by rw [hc]; rfl)).1
    · rw [Numeral.ofWord?, if_neg hc, Option.eq_none_iff_forall_ne_some]
      intro num hnum
      obtain ⟨-, -, hdigits⟩ := Numeral.ofDigits?_eq_some.mp hnum
      have hdigit := hdigits c List.mem_cons_self
      have hhead : (Text.upper (c :: w)).head? = some c := by
        rw [Text.upper, List.flatMap_cons, upperPoint_of_isDigit hdigit]
        rfl
      exact Bool.false_ne_true ((hupper c hhead).2.symm.trans hdigit)

theorem ofWord_of_keyword {w : Text} {k : Keyword} (h : Keyword.ofWord? w = some k) :
    ofWord w = .ok (.keyword k w) := by
  rw [ofWord, numeral_of_keyword h]
  dsimp only
  rw [h]

/-! ### The parts of a text -/

/-- A lexeme and the characters that spell it. -/
structure Part where
  lexeme : Lexeme
  span : Text
  deriving Repr, DecidableEq

/-- The parts of a text, one by one from the front: a gap, then the characters of a lexeme, until
nothing but a gap is left. -/
inductive Cut : Text → List Part → Prop
  | nil {cs : Text} (front : (splitGap false cs).2 = []) : Cut cs []
  | cons {cs rest : Text} {c : Text.Point} {p : Place} {t : Scan} {parts : List Part}
      (front : (splitGap false cs).2 = c :: rest) (taken : scan p c rest = .ok t)
      (others : Cut t.rest parts) : Cut cs (⟨t.lexeme, t.span⟩ :: parts)

/-- The characters are those of the part, or another spelling of its keyword. -/
def Part.Respelled (part : Part) (span : Text) : Prop :=
  span = part.span ∨
    ∃ k w, part.lexeme = .keyword k w ∧ isWord span = true ∧ span.upper = w.upper

/-- A blank comes first. -/
def StartsBlank (cs : Text) : Prop := ∃ c ∈ cs.head?, Text.isBlank c = true

/-- The text has the given parts with other gaps, and with keywords spelled otherwise. If it follows
a lexeme, its gap starts with a blank. -/
inductive Relaid : Bool → List Part → Text → Prop
  | nil {follows : Bool} {gap : Text} (last : IsLastGap gap)
      (parted : follows = true → gap = [] ∨ StartsBlank gap) : Relaid follows [] gap
  | cons {follows : Bool} {part : Part} {parts : List Part} {gap span rest : Text}
      (between : IsGap gap) (parted : follows = true → StartsBlank gap)
      (spelled : part.Respelled span) (others : Relaid true parts rest) :
      Relaid follows (part :: parts) (gap ++ (span ++ rest))

theorem Cut.lexesTo {text : Text} {parts : List Part} (h : Cut text parts) :
    LexesTo text (parts.map (·.lexeme)) := by
  induction h with
  | nil front => exact .nil front
  | cons front taken _ ih => exact .cons front taken ih

theorem LexesTo.exists_cut {text : Text} {ls : List Lexeme} (h : LexesTo text ls) :
    ∃ parts, Cut text parts := by
  induction h with
  | nil front => exact ⟨[], .nil front⟩
  | cons front taken _ ih =>
    obtain ⟨parts, hparts⟩ := ih
    exact ⟨_, .cons front taken hparts⟩

theorem Cut.spells {text : Text} {parts : List Part} (h : Cut text parts) :
    ∀ part ∈ parts, Spells part.span part.lexeme := by
  induction h with
  | nil => exact fun part hp => absurd hp List.not_mem_nil
  | cons _ taken _ ih => exact List.forall_mem_cons.mpr ⟨spells_of_scan taken, ih⟩

/-! ### The lexemes of the other text -/

theorem Spells.keyword {span w : Text} {k : Keyword} (h : Spells span (.keyword k w)) :
    Keyword.ofWord? w = some k := by
  generalize hl : Lexeme.keyword k w = l at h
  cases h with
  | symbol => cases hl
  | quoted => cases hl
  | word _ kind =>
    rcases ofWord_eq_ok kind with ⟨_, _, _, _, rfl⟩ | ⟨-, _, hk, rfl⟩ | ⟨-, -, rfl⟩
    · cases hl
    · cases hl
      exact hk
    · cases hl

theorem Part.Respelled.exists_alike {part : Part} {span : Text} (h : part.Respelled span)
    (hpart : Spells part.span part.lexeme) : ∃ l, Spells span l ∧ part.lexeme.Alike l := by
  rcases h with rfl | ⟨k, w, hl, whole, hupper⟩
  · exact ⟨part.lexeme, hpart, .same _⟩
  · rw [hl] at hpart ⊢
    have hspan : Keyword.ofWord? span = some k := by
      rw [Keyword.ofWord?, hupper]
      exact hpart.keyword
    exact ⟨.keyword k span, .word whole (ofWord_of_keyword hspan), .keyword hupper.symm⟩

theorem StartsBlank.append {cs : Text} (h : StartsBlank cs) (ds : Text) :
    StartsBlank (cs ++ ds) := by
  obtain ⟨c, hc, hb⟩ := h
  obtain ⟨es, rfl⟩ := List.head?_eq_some_iff.mp hc
  exact ⟨c, rfl, hb⟩

theorem StartsBlank.stops {cs : Text} (h : StartsBlank cs) (l : Lexeme) : l.Stops cs := by
  obtain ⟨c, hc, hb⟩ := h
  obtain ⟨es, rfl⟩ := List.head?_eq_some_iff.mp hc
  exact l.stops_cons (not_isWordPart_of_isBlank hb) (ne_of_isBlank hb (by decide)) es

/-- Every lexeme can end where the next gap starts. -/
theorem Relaid.stops {parts : List Part} {text : Text} (h : Relaid true parts text) (l : Lexeme) :
    l.Stops text := by
  cases h with
  | nil last parted =>
    rcases parted rfl with rfl | hblank
    · exact l.stops_nil
    · exact hblank.stops l
  | cons between parted spelled others => exact ((parted rfl).append _).stops l

theorem Relaid.lexesTo {follows : Bool} {parts : List Part} {text : Text}
    (h : Relaid follows parts text) (hparts : ∀ part ∈ parts, Spells part.span part.lexeme) :
    ∃ ls, LexesTo text ls ∧ List.Forall₂ Lexeme.Alike (parts.map (·.lexeme)) ls := by
  induction h with
  | nil last => exact ⟨[], .nil last.splitGap, .nil⟩
  | @cons _ part parts gap span rest between _ spelled others ih =>
    obtain ⟨hpart, hrest⟩ := List.forall_mem_cons.mp hparts
    obtain ⟨ls, hls, halike⟩ := ih hrest
    obtain ⟨l, hl, hpl⟩ := spelled.exists_alike hpart
    obtain ⟨c, cs, hcons, hfront, hscan⟩ := hl.scan (others.stops l)
    have hgap : (splitGap false (gap ++ (span ++ rest))).2 = c :: cs := by
      rw [between.splitGap, hcons, hfront]
    exact ⟨l :: ls, .cons hgap (hscan .start) hls, .cons hpl halike⟩

/-! ### The tokens and the statement -/

theorem map_eq_of_alike {α : Type} {f : Lexeme → α}
    (hf : ∀ {l m : Lexeme}, l.Alike m → f l = f m) {ls ms : List Lexeme}
    (h : List.Forall₂ Lexeme.Alike ls ms) : ls.map f = ms.map f := by
  induction h with
  | nil => rfl
  | cons first _ ih => rw [List.map_cons, List.map_cons, hf first, ih]

/-- Every text that has tokens is cut into parts. A text of the same parts with other gaps, and with
keywords in other cases, has tokens of the same classes and values, and the parser has the same
statement for both, or refuses both in the same words. -/
theorem statement_relaid (text : Text) :
    ((∃ ts, tokens text = .ok ts) ↔ ∃ parts, Cut text parts) ∧
    ∀ parts text', Cut text parts → Relaid false parts text' →
      (∃ ts us, tokens text = .ok ts ∧ tokens text' = .ok us ∧
        ts.lexemes = parts.map (·.lexeme) ∧
        us.lexemes.map (fun l => (l.className, l.value)) =
          ts.lexemes.map fun l => (l.className, l.value)) ∧
      ((∃ st, statement text = .ok st ∧ statement text' = .ok st) ∨
        ∃ f p g q, statement text = .error (.command f p) ∧
          statement text' = .error (.command g q) ∧ f.text = g.text) := by
  constructor
  · constructor
    · rintro ⟨ts, hts⟩
      exact (lexesTo_iff.mpr ⟨ts, hts, rfl⟩).exists_cut
    · rintro ⟨parts, hcut⟩
      obtain ⟨ts, hts, -⟩ := lexesTo_iff.mp hcut.lexesTo
      exact ⟨ts, hts⟩
  · intro parts text' hcut hrelaid
    obtain ⟨ts, hts, htl⟩ := lexesTo_iff.mp hcut.lexesTo
    obtain ⟨ls, hls, halike⟩ := hrelaid.lexesTo hcut.spells
    obtain ⟨us, hus, rfl⟩ := lexesTo_iff.mp hls
    rw [← htl] at halike
    have hview := map_eq_of_alike (f := fun l => (l.className, l.value))
      (fun hlm => Prod.ext hlm.className_eq hlm.value_eq) halike
    have htokens : ts.Alike us :=
      List.forall₂_map_right_iff.mp (List.forall₂_map_left_iff.mp halike)
    refine ⟨⟨ts, us, hts, hus, htl, hview.symm⟩, ?_⟩
    have hstatement : statement text = ts.statement := by rw [statement, hts]; rfl
    have hstatement' : statement text' = us.statement := by rw [statement, hus]; rfl
    rw [hstatement, hstatement']
    have hanswers := answers_statement htokens
    generalize ts.statement = x at hanswers
    generalize us.statement = y at hanswers
    cases hanswers with
    | @ok st _ related => exact Or.inl ⟨st, rfl, congrArg Except.ok related.symm⟩
    | fault words => exact Or.inr ⟨_, _, _, _, rfl, rfl, words⟩

namespace Sample

def parts : List Part := [⟨.keyword .print "print", "print"⟩, ⟨.word "t", "t"⟩]

theorem cut : Cut "print t" parts := by
  have hrest : Cut " t" [⟨.word "t", "t"⟩] := by
    have taken : scan .start 't' [] = .ok ⟨.word "t", "t", []⟩ :=
      eq_ok_of_toOption (by decide +kernel)
    exact .cons (by decide +kernel) taken (.nil rfl)
  have taken : scan .start 'p' "rint t" = .ok ⟨.keyword .print "print", "print", " t"⟩ :=
    eq_ok_of_toOption (by decide +kernel)
  exact .cons (by decide +kernel) taken hrest

/-- A comment comes before the first lexeme, and another one after the last; the blank between them
is no break, and the upper case of the dotless letter has no dot either. -/
def text : Text := "-- shown\n\t" ++ ("PrıNT" ++ ("\u00a0" ++ ("t" ++ " -- now")))

theorem relaid : Relaid false parts text := by
  have hfront : IsGap "-- shown\n\t" := by
    have hparts : ("-- shown\n\t" : Text) =
        ("--" : Text) ++ ((" shown" : Text) ++ .char '\n' :: [.char '\t']) := by decide +kernel
    rw [hparts]
    exact .comment (by decide) (.blank (by decide) .nil)
  have hback : IsLastGap " -- now" := .comment (.blank (by decide) .nil) (by decide)
  refine .cons hfront (fun h => nomatch h) (Or.inr ⟨.print, "print", rfl, ?_, ?_⟩) ?_
  · decide +kernel
  · decide +kernel
  · refine .cons (.blank (by decide) .nil) (fun _ => ⟨.char '\u00a0', rfl, by decide⟩) (Or.inl rfl) ?_
    exact .nil hback fun _ => Or.inr ⟨.char ' ', rfl, by decide⟩

end Sample

theorem statement_relaid_sample :
    Cut "print t" Sample.parts ∧ Relaid false Sample.parts Sample.text ∧
      statement Sample.text = .ok (.print "t") := by
  have hprint : statement "print t" = .ok (.print "t") := eq_ok_of_toOption (by decide +kernel)
  refine ⟨Sample.cut, Sample.relaid, ?_⟩
  rcases ((statement_relaid "print t").2 _ _ Sample.cut Sample.relaid).2 with
    ⟨st, hst, hst'⟩ | ⟨f, p, g, q, hf, -, -⟩
  · rw [hst', ← hst, hprint]
  · cases hprint.symm.trans hf

end TableAlgebra.Command
