import Mathlib.Data.List.DropRight
import TableAlgebra.Proofs.Command.Relaid

/-!
# Where tokens stand

The lexer keeps the place it has come to as it goes, over whole words, over gaps of many lines and
over the characters in quotes. The places that it gives are those that one finds by counting the
line feeds before a token and the characters since the last of them. Nothing of the text is lost: it
is the characters of the tokens with gaps between, and if the lexer fails, then where no lexeme
begins, after such a part of the text.

* `Place.behind before`      the place after a text, by counting; `after_start` is the lexer's;
* `Traced text ts`           the text is gaps and tokens in turn, each token at its place;
* `Stuck cs`                 no lexeme is spelled at the front of the text;
* `skips`, `refused_of_scan`   one gap and one lexeme;
* `traced_tokensFrom`        the lexer from where it has come to;
* `tokens_traced`            the lexer on a whole text.
-/

namespace TableAlgebra.Command

open Text (Numeral)

/-! ### Places by counting -/

/-- The place after a text: a line more than there are line feeds in it, and a column more than
there are characters after the last of them. -/
def Place.behind (before : Text) : Place :=
  ⟨1 + before.count (.char '\n'), 1 + (before.rtakeWhile fun c => c ≠ .char '\n').length⟩

theorem Place.after_start (before : Text) : Place.start.after before = .behind before := by
  induction before using List.reverseRecOn with
  | nil => rfl
  | append_singleton before c ih =>
    rw [after_append, ih, after_cons, after_nil, behind, behind, List.count_append, step]
    by_cases hc : c = '\n'
    · rw [if_pos hc, List.rtakeWhile_concat_neg _ _ _ (by simpa using hc), hc]
      rfl
    · rw [if_neg hc, List.rtakeWhile_concat_pos _ _ _ (by simpa using hc), List.length_append,
        List.count_singleton, if_neg (by simpa using hc)]
      rfl

theorem Place.behind_append (before cs : Text) :
    (behind before).after cs = .behind (before ++ cs) := by
  rw [← after_start, ← after_append, after_start]

/-! ### The parts of a text -/

/-- The characters are those of the lexeme: its spelling, or a text between two quotes of one
kind. -/
def Lexeme.IsSpan : Lexeme → Text → Prop
  | .quoted v, span =>
    ∃ q : Text.Point, (q = '\x22' ∨ q = '\x27') ∧ span = q :: (escape q v ++ [q])
  | l, span => span = l.spelling

theorem Spells.isSpan {span : Text} {l : Lexeme} (h : Spells span l) : l.IsSpan span := by
  cases h with
  | symbol s => rfl
  | quoted quote last => exact ⟨_, quote, rfl⟩
  | word whole kind =>
    rcases ofWord_eq_ok kind with ⟨_, _, _, _, rfl⟩ | ⟨_, _, _, rfl⟩ | ⟨_, _, rfl⟩ <;> rfl

/-- The text is made of the tokens: before each of them comes a gap, then its characters, and it
stands at the place where they start. -/
inductive Traced : Text → List Token → Prop
  | nil : Traced [] []
  | snoc {front gap span : Text} {ts : List Token} {l : Lexeme} (traced : Traced front ts)
      (between : IsGap gap) (shown : l.IsSpan span) (spelled : Spells span l) :
      Traced (front ++ (gap ++ span)) (ts ++ [⟨l, .behind (front ++ gap)⟩])

/-- No lexeme is spelled at the front of the text. -/
def Stuck (cs : Text) : Prop := ∀ span l, Spells span l → ¬span <+: cs

/-- Why the lexer does not go on where a text begins with `c`, at the place `p`. -/
inductive Refused (p : Place) (c : Text.Point) (rest : Text) : Error → Prop
  | illegal (plain : c ≠ '\x22' ∧ c ≠ '\x27') (stuck : Stuck (c :: rest)) :
      Refused p c rest (.command (.illegal c) p)
  | unterminated (quote : c = '\x22' ∨ c = '\x27') (stuck : Stuck (c :: rest)) :
      Refused p c rest (.command .unterminated p)
  | tooLong {n : Nat} (numeral : IsNumeral n c rest) (long : Numeral.maxDigits < n) :
      Refused p c rest (.tooManyDigits n)

/-! ### One gap -/

/-- What the lexer skips first: a gap up to the end of the text, or up to where neither a blank nor
a comment begins. -/
inductive Skips (cs : Text) : Prop
  | all (last : IsLastGap cs) (split : splitGap false cs = (cs, []))
  | some {gap rest : Text} {c : Text.Point} (text : cs = gap ++ c :: rest) (between : IsGap gap)
      (split : splitGap false cs = (gap, c :: rest))

theorem splitGap_eq {cs gap rest : Text} (h : (splitGap false cs).2 = rest)
    (hcs : cs = gap ++ rest) : splitGap false cs = (gap, rest) := by
  have happend := splitGap_append false cs
  rw [h] at happend
  exact Prod.ext (List.append_cancel_right (happend.trans hcs)) h

/-- A blank or a comment that comes before is skipped too. -/
theorem Skips.append {front others : Text} (h : Skips others)
    (hgap : ∀ gap, IsGap gap → IsGap (front ++ gap))
    (hrest : (splitGap false (front ++ others)).2 = (splitGap false others).2) :
    Skips (front ++ others) := by
  cases h with
  | all last split =>
    refine .all ?_ (splitGap_eq (by rw [hrest, split]) (List.append_nil _).symm)
    cases last with
    | gap h => exact .gap (hgap _ h)
    | comment h line =>
      rw [← List.append_assoc]
      exact .comment (hgap _ h) line
  | @some gap rest c text between split =>
    have happend : front ++ others = (front ++ gap) ++ c :: rest := by
      rw [text, List.append_assoc]
    exact .some happend (hgap _ between) (splitGap_eq (by rw [hrest, split]) happend)

theorem skips (cs : Text) : Skips cs := by
  induction hk : cs.length using Nat.strongRecOn generalizing cs with
  | ind k ih =>
    cases cs with
    | nil => exact .all (.gap .nil) rfl
    | cons c cs =>
      rw [List.length_cons] at hk
      by_cases hblank : Text.isBlank c = true
      · have hrest : (splitGap false ([c] ++ cs)).2 = (splitGap false cs).2 := by
          rw [List.singleton_append, splitGap, if_neg Bool.false_ne_true, if_pos hblank]
        exact (ih cs.length (by omega) cs rfl).append (fun gap h => .blank hblank h) hrest
      · by_cases hcomment : c = '-' ∧ cs.head? = some '-'
        · obtain ⟨rfl, hhead⟩ := hcomment
          obtain ⟨note, rfl⟩ := List.head?_eq_some_iff.mp hhead
          by_cases hline : Text.Point.char '\n' ∈ note
          · obtain ⟨line, others, rfl, hnote⟩ := List.eq_append_cons_of_mem hline
            have hcomment : Text.Point.char '-' :: '-' :: (line ++ .char '\n' :: others) =
                ("--" : Text) ++ (line ++ [.char '\n']) ++ others := by simp [Text.ofString]
            have hshorter : others.length < k := by
              rw [← hk, List.length_cons, List.length_append, List.length_cons]
              omega
            rw [hcomment]
            refine (ih _ hshorter others rfl).append (fun gap h => ?_) ?_
            · have hgap := IsGap.comment hnote h
              simpa using hgap
            · rw [← hcomment]
              exact (splitGap_dashes _).trans (splitGap_note hnote others)
          · exact .all (.comment .nil hline) (splitGap_eq
              ((splitGap_dashes note).trans (splitGap_comment hline)) (List.append_nil _).symm)
        · have hsplit := splitGap_of_front (Bool.eq_false_iff.mpr hblank) fun hc hhead =>
            hcomment ⟨hc, hhead⟩
          exact .some rfl .nil hsplit

/-! ### One lexeme -/

theorem splitSymbol?_text_ne_none (s : Symbol) (rest : Text) :
    splitSymbol? (s.text ++ rest) ≠ none := by
  intro h
  by_cases hstop : (Lexeme.symbol s).Stops rest
  · rw [splitSymbol?_text hstop] at h
    cases h
  · simp only [Lexeme.Stops, Classical.not_imp, not_not] at hstop
    obtain ⟨hhead, hs⟩ := hstop
    obtain ⟨others, rfl⟩ := List.head?_eq_some_iff.mp hhead
    simp only [List.mem_cons, List.not_mem_nil, or_false] at hs
    rcases hs with rfl | rfl | rfl <;> cases h

theorem startsWord_of_isWord {w rest cs : Text} {c : Text.Point} (whole : isWord w = true)
    (h : w ++ rest = c :: cs) : startsWord c cs = true := by
  cases w with
  | nil => cases whole
  | cons d w =>
    obtain ⟨rfl, rfl⟩ := List.cons.inj h
    exact startsWord_append (Bool.and_eq_true_iff.mp whole).1 rest

/-- Where a word starts, the lexer fails only for its digits. -/
theorem scan_ne_command_of_startsWord {p q : Place} {c : Text.Point} {rest : Text} {f : Fault}
    (h : startsWord c rest = true) : scan p c rest ≠ .error (.command f q) := by
  rw [scan_of_startsWord h]
  intro he
  obtain ⟨_, _, _, he⟩ := ofWord_eq_error.mp (map_eq_error.mp he)
  cases he

/-- Where a lexeme is spelled, there is no fault. -/
theorem Spells.scan_ne_command {span more rest : Text} {l : Lexeme} (h : Spells span l)
    {c : Text.Point} (hspan : span ++ more = c :: rest) {p q : Place} {f : Fault} :
    Command.scan p c rest ≠ .error (.command f q) := by
  cases h with
  | symbol s =>
    have hsplit := splitSymbol?_text_ne_none s more
    rw [hspan] at hsplit
    intro he
    unfold Command.scan at he
    split at he
    · next hquote =>
      rw [Bool.or_eq_true, decide_eq_true_iff, decide_eq_true_iff] at hquote
      rcases hquote with rfl | rfl <;> exact hsplit rfl
    · split at he
      · next hword =>
        refine scan_ne_command_of_startsWord hword (p := p) (q := q) (f := f) ?_
        rw [scan_of_startsWord hword]
        exact he
      · split at he
        · cases he
        · next hnone => exact hsplit hnone
  | quoted quote last =>
    obtain ⟨d, cs, hcons, -, hscan⟩ := scan_quoted quote last more
    rw [hspan] at hcons
    obtain ⟨rfl, rfl⟩ := List.cons.inj hcons
    rw [hscan p]
    exact nofun
  | word whole kind => exact scan_ne_command_of_startsWord (startsWord_of_isWord whole hspan)

theorem refused_of_scan {p : Place} {c : Text.Point} {rest : Text} {e : Error}
    (h : scan p c rest = .error e) : Refused p c rest e := by
  have hstuck {f : Fault} (hf : e = .command f p) : Stuck (c :: rest) := by
    rintro span l hspells ⟨more, hmore⟩
    exact hspells.scan_ne_command hmore (h.trans (congrArg Except.error hf))
  rcases scan_eq_error h with ⟨f, rfl⟩ | ⟨n, hn, hlong, rfl⟩
  · have hfront := hstuck rfl
    by_cases hword : startsWord c rest = true
    · exact absurd h (scan_ne_command_of_startsWord hword)
    · unfold scan at h
      split at h
      · next hquote =>
        rw [Bool.or_eq_true, decide_eq_true_iff, decide_eq_true_iff] at hquote
        split at h
        · cases h
        · cases h
          exact .unterminated hquote hfront
      · next hquote =>
        rw [Bool.or_eq_true, decide_eq_true_iff, decide_eq_true_iff, not_or] at hquote
        split at h
        · cases h
        · cases h
          exact .illegal hquote hfront
  · exact .tooLong hn hlong

/-! ### All tokens -/

/-- What the lexer makes of a text: tokens up to the end, or an error behind some of them. -/
inductive Lexed (text : Text) : Except Error Tokens → Prop
  | done {front last : Text} {ts : Tokens} (whole : text = front ++ last)
      (traced : Traced front ts.list) (gap : IsLastGap last) (stop : ts.stop = .behind text) :
      Lexed text (.ok ts)
  | failed {front gap rest : Text} {ts : List Token} {c : Text.Point} {e : Error}
      (whole : text = front ++ (gap ++ c :: rest)) (traced : Traced front ts) (between : IsGap gap)
      (refused : Refused (.behind (front ++ gap)) c rest e) : Lexed text (.error e)

theorem traced_tokensFrom {before : Text} {us : List Token} (h : Traced before us) (cs : Text) :
    Lexed (before ++ cs)
      ((tokensFrom (.behind before) cs).map fun ts => ⟨us ++ ts.list, ts.stop⟩) := by
  -- on the length of the text: a gap and a lexeme come off it together, and are traced then
  induction hk : cs.length using Nat.strongRecOn generalizing before us cs with
  | ind k ih =>
    cases skips cs with
    | all last split =>
      rw [tokensFrom_of_gap split, Place.behind_append]
      refine .done rfl ?_ last rfl
      show Traced before (us ++ [])
      rwa [List.append_nil]
    | @some gap rest c text between split =>
      rw [tokensFrom_of_gap_cons split, Place.behind_append]
      cases hscan : scan (.behind (before ++ gap)) c rest with
      | error e => exact .failed (by rw [text]) h between (refused_of_scan hscan)
      | ok t =>
        have hspells := spells_of_scan hscan
        have htraced := h.snoc between hspells.isSpan hspells
        have htext : before ++ cs = (before ++ (gap ++ t.span)) ++ t.rest := by
          rw [text, ← scan_append hscan, List.append_assoc, List.append_assoc]
        have hlt : t.rest.length < k := by
          have hle := length_scan_rest_le hscan
          rw [← hk, text, List.length_append, List.length_cons]
          omega
        have hrest := ih _ hlt htraced t.rest rfl
        rw [htext]
        show Lexed _ (((tokensFrom _ t.rest).map _).map _)
        rw [Place.behind_append, List.append_assoc before gap]
        cases hts : tokensFrom (.behind (before ++ (gap ++ t.span))) t.rest with
        | error e =>
          rw [hts] at hrest
          exact hrest
        | ok ts =>
          rw [hts] at hrest
          simpa only [Except.map, List.append_assoc, List.singleton_append] using hrest

/-- The lexer either gives tokens or fails. The tokens stand in the text in order, with nothing but
gaps before, between and behind them; each is at the line and column where its characters start, and
the end is where the text ends. If the lexer fails, then behind tokens and a gap like these: it is
at the line and column of a character with which no lexeme begins, of the quote of a text that is
not closed, or it has come to a numeral that is too long. -/
theorem tokens_traced (text : Text) :
    (∃ ts front last, tokens text = .ok ts ∧ text = front ++ last ∧ Traced front ts.list ∧
      IsLastGap last ∧ ts.stop = .behind text) ∨
    ∃ e ts front gap c rest, tokens text = .error e ∧ text = front ++ (gap ++ c :: rest) ∧
      Traced front ts ∧ IsGap gap ∧ Refused (.behind (front ++ gap)) c rest e := by
  have h := traced_tokensFrom .nil text
  rw [List.nil_append] at h
  have htokens :
      ((tokensFrom (.behind []) text).map fun ts => ⟨[] ++ ts.list, ts.stop⟩) = tokens text := by
    show _ = tokensFrom (.behind []) text
    cases tokensFrom (.behind []) text <;> rfl
  rw [htokens] at h
  generalize tokens text = result at h
  cases h with
  | @done front last ts whole traced gap stop =>
    exact Or.inl ⟨ts, front, last, rfl, whole, traced, gap, stop⟩
  | @failed front gap rest ts c e whole traced between refused =>
    exact Or.inr ⟨e, ts, front, gap, c, rest, rfl, whole, traced, between, refused⟩

end TableAlgebra.Command
