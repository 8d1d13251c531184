import TableAlgebra.Proofs.Command.Numerals
import TableAlgebra.Proofs.Command.Reading

/-!
# Lexemes and their written forms

Not every lexeme can come from a text: a word has to look like one, and no text in quotes ends in a
backslash, since the backslash would take the closing quote with it. Those that can are read back
from a written form, alone or in a list.

* `LexesTo text ls`        the lexemes of the text, without their places (`lexesTo_iff`);
* `IsReadable`             what a lexeme of a text is like (`LexesTo.isReadable`);
* `Spells span l`          the characters that spell a lexeme (`spells_of_scan`, `Spells.scan`), and
                           with it the next token (`Spells.tokensFrom`);
* `Lexeme.source`          a written form, and `Lexeme.Stops` what may come after it;
* `lexesTo_layout`         readable lexemes are the lexemes of their layout.
-/

namespace TableAlgebra.Command

open Text (Numeral)

/-! ### Words -/

def isWord : Text → Bool
  | [] => false
  | c :: cs => startsWord c cs && cs.all isWordPart

/-- Neither an integer nor a keyword. -/
def IsBareWord (w : Text) : Prop :=
  isWord w = true ∧ Numeral.ofWord? w = none ∧ Keyword.ofWord? w = none

theorem isWordPart_of_isDigit {c : Text.Point} (h : Text.isDigit c = true) :
    isWordPart c = true := by
  -- the ten digits of a script lie in one range of word characters
  have hranges : ∀ z ∈ Text.zeros,
      Text.wordRanges.any (fun r => Nat.ble r.1 z && Nat.ble (z + 9) r.2) = true := by
    decide +kernel
  simp only [List.any_eq_true, Bool.and_eq_true, Nat.ble_eq] at hranges
  have hword : Text.isWordChar c = true := by
    obtain ⟨d, hd⟩ := Option.isSome_iff_exists.mp h
    obtain ⟨z, hz, -⟩ := Option.map_eq_some_iff.mp hd
    have hbounds := List.find?_some hz
    obtain ⟨r, hr, hlow, hhigh⟩ := hranges z (List.mem_of_find?_eq_some hz)
    simp only [Bool.and_eq_true, decide_eq_true_eq] at hbounds
    exact Text.inRanges_iff.mpr ⟨r, hr, by omega, by omega⟩
  simp [isWordPart, hword]

theorem isWordPart_of_isLetter {c : Text.Point} (h : isLetter c = true) : isWordPart c = true := by
  have hword : Text.isWordChar c = true := by
    cases c with
    | surrogate n => cases h
    | char c =>
      have h : c.isAlpha = true := h
      delta Char.isAlpha Char.isUpper Char.isLower at h
      simp only [Bool.or_eq_true, Bool.and_eq_true, decide_eq_true_eq, ge_iff_le,
        UInt32.le_iff_toNat_le] at h
      rcases h with ⟨hlow, hhigh⟩ | ⟨hlow, hhigh⟩
      · exact Text.inRanges_iff.mpr ⟨(65, 90), by decide, hlow, hhigh⟩
      · exact Text.inRanges_iff.mpr ⟨(97, 122), by decide, hlow, hhigh⟩
  simp [isWordPart, hword]

theorem isWordPart_of_startsWord {c : Text.Point} {cs : Text} (h : startsWord c cs = true) :
    isWordPart c = true := by
  simp only [startsWord, Bool.or_eq_true, decide_eq_true_eq, Bool.and_eq_true] at h
  rcases h with ((h | rfl) | h) | ⟨rfl, -⟩
  · exact isWordPart_of_isLetter h
  · decide +kernel
  · exact isWordPart_of_isDigit h
  · decide +kernel

theorem not_isBlank_of_isWordPart {c : Text.Point} (h : isWordPart c = true) :
    Text.isBlank c = false := by
  have hranges : (Text.wordRanges.all fun r =>
      Text.blankRanges.all fun b => r.2 < b.1 || b.2 < r.1) = true := by decide +kernel
  simp only [List.all_eq_true, Bool.or_eq_true, decide_eq_true_eq] at hranges
  simp only [isWordPart, Bool.or_eq_true, decide_eq_true_eq] at h
  rcases h with (((h | rfl) | rfl) | rfl) | rfl
  · refine Bool.eq_false_iff.mpr fun hb => ?_
    obtain ⟨r, hr, hlow, hhigh⟩ := Text.inRanges_iff.mp h
    obtain ⟨b, hb, hlow', hhigh'⟩ := Text.inRanges_iff.mp hb
    have hdisjoint := hranges r hr b hb
    omega
  all_goals decide +kernel

theorem startsWord_takeWhile (c : Text.Point) (rest : Text) :
    startsWord c (rest.takeWhile isWordPart) = startsWord c rest := by
  cases rest with
  | nil => rfl
  | cons d rest =>
    by_cases hd : isWordPart d = true
    · rw [List.takeWhile_cons_of_pos hd]
      rfl
    · have hdigit : Text.isDigit d = false :=
        Bool.eq_false_iff.mpr fun h => hd (isWordPart_of_isDigit h)
      rw [List.takeWhile_cons_of_neg hd]
      simp [startsWord, hdigit]

theorem startsWord_append {c : Text.Point} {cs : Text} (h : startsWord c cs = true) (rest : Text) :
    startsWord c (cs ++ rest) = true := by
  cases cs with
  | nil =>
    simp only [startsWord, List.head?_nil, Option.any_none, Bool.and_false, Bool.or_false] at h
    simp [startsWord, h]
  | cons d cs => exact h

theorem isWord_of_startsWord {c : Text.Point} {rest : Text} (h : startsWord c rest = true) :
    isWord (c :: rest.takeWhile isWordPart) = true := by
  rw [isWord, startsWord_takeWhile, h, List.all_takeWhile]
  rfl

theorem ofWord_of_isBareWord {w : Text} (h : IsBareWord w) : ofWord w = .ok (.word w) := by
  obtain ⟨-, hnumeral, hkeyword⟩ := h
  rw [ofWord, hnumeral]
  dsimp only
  rw [hkeyword]

theorem ofWord_eq_ok {w : Text} {l : Lexeme} (h : ofWord w = .ok l) :
    (∃ num n, Numeral.ofWord? w = some num ∧ num.value = .ok n ∧ l = .integer n w) ∨
      (Numeral.ofWord? w = none ∧ ∃ k, Keyword.ofWord? w = some k ∧ l = .keyword k w) ∨
        (Numeral.ofWord? w = none ∧ Keyword.ofWord? w = none ∧ l = .word w) := by
  unfold ofWord at h
  split at h
  · next num hnum =>
    obtain ⟨n, hn, rfl⟩ := map_eq_ok.mp h
    exact Or.inl ⟨num, n, hnum, mapError_eq_ok.mp hn, rfl⟩
  · next hnum =>
    split at h
    · next k hk =>
      cases h
      exact Or.inr (Or.inl ⟨hnum, k, hk, rfl⟩)
    · next hk =>
      cases h
      exact Or.inr (Or.inr ⟨hnum, hk, rfl⟩)

/-! ### Texts in quotes -/

def escape (q : Text.Point) (v : Text) : Text :=
  v.flatMap fun c => if c = q then [.char '\\', c] else [c]

theorem escape_cons (q c : Text.Point) (v : Text) :
    escape q (c :: v) = (if c = q then [.char '\\', c] else [c]) ++ escape q v := rfl

theorem getLast?_cons_ne {c d : Text.Point} {v : Text} (hv : v.getLast? ≠ some d)
    (hc : v = [] → c ≠ d) : (c :: v).getLast? ≠ some d := by
  cases v with
  | nil => simpa using hc rfl
  | cons e v => rwa [List.getLast?_cons_cons]

/-- A text that closes at once begins with the quote. -/
theorem eq_quote_of_closeQuote {q c : Text.Point} {cs : Text} {t : Closing}
    (h : closeQuote q (c :: cs) = some t) (ht : t.value = []) : c = q := by
  cases cs with
  | nil =>
    rw [closeQuote] at h
    exact Decidable.byContradiction fun hc => nomatch (if_neg hc).symm.trans h
  | cons d cs =>
    rw [closeQuote] at h
    split at h
    · assumption
    · split at h
      · obtain ⟨u, -, rfl⟩ := Option.map_eq_some_iff.mp h
        cases ht
      · obtain ⟨u, -, rfl⟩ := Option.map_eq_some_iff.mp h
        cases ht

theorem getLast?_of_closeQuote {q : Text.Point} (hq : q ≠ '\\') {cs : Text} {t : Closing}
    (h : closeQuote q cs = some t) : t.value.getLast? ≠ some (.char '\\') := by
  fun_induction closeQuote q cs generalizing t with
  | case1 => cases h
  | case2 => cases h; exact (Option.some_ne_none _).symm
  | case3 => cases h
  | case4 => cases h; exact (Option.some_ne_none _).symm
  | case5 c d cs _ hd ih =>
    obtain ⟨u, hu, rfl⟩ := Option.map_eq_some_iff.mp h
    simp only [Bool.and_eq_true, decide_eq_true_eq] at hd
    exact getLast?_cons_ne (ih hu) fun _ => hd.2 ▸ hq
  | case6 c d cs _ hd ih =>
    obtain ⟨u, hu, rfl⟩ := Option.map_eq_some_iff.mp h
    simp only [Bool.and_eq_true, decide_eq_true_eq, not_and] at hd
    exact getLast?_cons_ne (ih hu) fun hnil hc => hd hc (eq_quote_of_closeQuote hu hnil)

theorem closeQuote_escape {q : Text.Point} (hq : q ≠ '\\') {v : Text}
    (hv : v.getLast? ≠ some (.char '\\')) (rest : Text) :
    closeQuote q (escape q v ++ q :: rest) = some ⟨v, escape q v ++ [q], rest⟩ := by
  induction v with
  | nil =>
    show closeQuote q (q :: rest) = some ⟨[], [q], rest⟩
    cases rest <;> simp [closeQuote]
  | cons c v ih =>
    have hlast : v.getLast? ≠ some (.char '\\') := by
      cases v with
      | nil => exact (Option.some_ne_none _).symm
      | cons d v => rwa [List.getLast?_cons_cons] at hv
    rw [escape_cons]
    by_cases hc : c = q
    · rw [if_pos hc, hc]
      show closeQuote q (.char '\\' :: q :: (escape q v ++ q :: rest)) = _
      rw [closeQuote, if_neg (Ne.symm hq), if_pos (by simp), ih hlast]
      rfl
    · rw [if_neg hc]
      have hnext : ∀ d cs, escape q v ++ q :: rest = d :: cs → ¬(c = '\\' ∧ d = q) := by
        rintro d cs he ⟨rfl, rfl⟩
        cases v with
        | nil => exact hv rfl
        | cons e v =>
          rw [escape_cons] at he
          split at he
          · exact hq (List.cons.inj he).1.symm
          · next hne => exact hne (List.cons.inj he).1
      have hcons : ∃ d cs, escape q v ++ q :: rest = d :: cs :=
        List.exists_cons_of_ne_nil (by simp)
      obtain ⟨d, cs, he⟩ := hcons
      have hih := ih hlast
      show closeQuote q (c :: (escape q v ++ q :: rest)) = _
      rw [he] at hih ⊢
      rw [closeQuote, if_neg hc, if_neg (by simpa using hnext d cs he), hih]
      rfl

/-! ### What can be read -/

/-- A lexeme that the lexer can come to. -/
inductive IsReadable : Lexeme → Prop
  | symbol (s : Symbol) : IsReadable (.symbol s)
  | quoted {v : Text} (last : v.getLast? ≠ some (.char '\\')) : IsReadable (.quoted v)
  | word {w : Text} {l : Lexeme} (whole : isWord w = true) (kind : ofWord w = .ok l) : IsReadable l

theorem isReadable_word {w : Text} : IsReadable (.word w) ↔ IsBareWord w := by
  constructor
  · intro h
    cases h with
    | word whole kind =>
      rcases ofWord_eq_ok kind with ⟨_, _, _, _, h⟩ | ⟨_, _, _, h⟩ | ⟨hnum, hkey, h⟩
      · cases h
      · cases h
      · cases h
        exact ⟨whole, hnum, hkey⟩
  · intro h
    exact .word h.1 (ofWord_of_isBareWord h)

theorem isReadable_quoted {v : Text} : IsReadable (.quoted v) ↔ v.getLast? ≠ some (.char '\\') := by
  constructor
  · intro h
    cases h with
    | quoted last => exact last
    | word whole kind =>
      rcases ofWord_eq_ok kind with ⟨_, _, _, _, h⟩ | ⟨_, _, _, h⟩ | ⟨_, _, h⟩ <;> cases h
  · exact .quoted

theorem isReadable_integer {n : Numeral.Value} {w : Text} :
    IsReadable (.integer n w) ↔
      isWord w = true ∧ ∃ num, Numeral.ofWord? w = some num ∧ num.value = .ok n := by
  constructor
  · intro h
    cases h with
    | word whole kind =>
      rcases ofWord_eq_ok kind with ⟨num, _, hnum, hn, h⟩ | ⟨_, _, _, h⟩ | ⟨_, _, h⟩
      · cases h
        exact ⟨whole, num, hnum, hn⟩
      · cases h
      · cases h
  · rintro ⟨whole, num, hnum, hn⟩
    refine .word whole ?_
    rw [ofWord, hnum]
    dsimp only
    rw [hn]
    rfl

/-! ### Spelled forms -/

/-- The characters spell the lexeme; the quotes of a text may be of either kind. -/
inductive Spells : Text → Lexeme → Prop
  | symbol (s : Symbol) : Spells s.text (.symbol s)
  | quoted {q : Text.Point} {v : Text} (quote : q = '\x22' ∨ q = '\x27')
      (last : v.getLast? ≠ some (.char '\\')) : Spells (q :: (escape q v ++ [q])) (.quoted v)
  | word {w : Text} {l : Lexeme} (whole : isWord w = true) (kind : ofWord w = .ok l) : Spells w l

theorem closeQuote_span {q : Text.Point} {cs : Text} {t : Closing}
    (h : closeQuote q cs = some t) : t.span = escape q t.value ++ [q] := by
  fun_induction closeQuote q cs generalizing t with
  | case1 => cases h
  | case2 => cases h; rfl
  | case3 => cases h
  | case4 => cases h; rfl
  | case5 c d cs _ hd ih =>
    obtain ⟨u, hu, rfl⟩ := Option.map_eq_some_iff.mp h
    simp only [Bool.and_eq_true, decide_eq_true_eq] at hd
    obtain ⟨rfl, rfl⟩ := hd
    show _ ++ u.span = escape d (d :: u.value) ++ [d]
    rw [escape_cons, if_pos rfl, ih hu]
    rfl
  | case6 c d cs hc _ ih =>
    obtain ⟨u, hu, rfl⟩ := Option.map_eq_some_iff.mp h
    show _ ++ u.span = escape q (c :: u.value) ++ [q]
    rw [escape_cons, if_neg hc, ih hu]
    rfl

theorem spells_of_scan {p : Place} {c : Text.Point} {cs : Text} {t : Scan}
    (h : scan p c cs = .ok t) : Spells t.span t.lexeme := by
  unfold scan at h
  split at h
  · next hc =>
    rw [Bool.or_eq_true, decide_eq_true_iff, decide_eq_true_iff] at hc
    split at h
    · next u hu =>
      cases h
      have hne : c ≠ '\\' := by
        rcases hc with rfl | rfl <;> decide
      rw [closeQuote_span hu]
      exact .quoted hc (getLast?_of_closeQuote hne hu)
    · cases h
  · split at h
    · next hw =>
      obtain ⟨l, hl, rfl⟩ := map_eq_ok.mp h
      exact .word (isWord_of_startsWord hw) hl
    · split at h
      · cases h
        exact .symbol _
      · cases h

theorem Spells.isReadable {span : Text} {l : Lexeme} (h : Spells span l) : IsReadable l := by
  cases h with
  | symbol s => exact .symbol s
  | quoted _ last => exact .quoted last
  | word whole kind => exact .word whole kind

/-! ### Written forms -/

/-- A written form of a lexeme. -/
def Lexeme.source : Lexeme → Text
  | .quoted v => .char '\x27' :: (escape (.char '\x27') v ++ [.char '\x27'])
  | l => l.spelling

/-- The written form of the lexeme ends where the text goes on like this. -/
def Lexeme.Stops : Lexeme → Text → Prop
  | .quoted _, _ => True
  | .symbol s, rest => rest.head? = some (.char '=') → s ∉ [.assign, .lessThan, .greaterThan]
  | _, rest => ∀ c ∈ rest.head?, isWordPart c = false

/-- A lexeme begins here, and neither a blank nor a comment. -/
theorem splitGap_of_front {c : Text.Point} {cs : Text} (hc : Text.isBlank c = false)
    (hcs : c = '-' → cs.head? ≠ some '-') : splitGap false (c :: cs) = ([], c :: cs) := by
  rw [splitGap, if_neg Bool.false_ne_true, hc, if_neg Bool.false_ne_true, if_neg]
  simpa using hcs

theorem splitGap_of_startsWord {c : Text.Point} {cs : Text} (h : startsWord c cs = true) :
    splitGap false (c :: cs) = ([], c :: cs) := by
  refine splitGap_of_front (not_isBlank_of_isWordPart (isWordPart_of_startsWord h)) ?_
  rintro rfl hhead
  simp [startsWord, hhead, show isLetter '-' = false by decide,
    show Text.isDigit '-' = false by decide] at h

theorem splitSymbol?_text {s : Symbol} {rest : Text} (h : (Lexeme.symbol s).Stops rest) :
    splitSymbol? (s.text ++ rest) = some (s, rest) := by
  have hne : s ∈ [.assign, .lessThan, .greaterThan] → ∀ cs, rest ≠ .char '=' :: cs := by
    rintro hs cs rfl
    exact h rfl hs
  cases s with
  | assign =>
    show splitSymbol? (.char '=' :: rest) = _
    rw [splitSymbol?]
    exact hne (by decide)
  | lessThan =>
    show splitSymbol? (.char '<' :: rest) = _
    rw [splitSymbol?]
    exact hne (by decide)
  | greaterThan =>
    show splitSymbol? (.char '>' :: rest) = _
    rw [splitSymbol?]
    exact hne (by decide)
  | _ => rfl

theorem scan_symbol {s : Symbol} {rest : Text} (h : (Lexeme.symbol s).Stops rest) :
    ∃ c cs, s.text ++ rest = c :: cs ∧ splitGap false (c :: cs) = ([], c :: cs) ∧
      ∀ p, scan p c cs = .ok ⟨.symbol s, s.text, rest⟩ := by
  have hsplit := splitSymbol?_text h
  have hfront : ∀ c ∈ s.text.head?, Text.isBlank c = false ∧ c ≠ '-' ∧
      (c = '\x22' || c = '\x27') = false ∧ isLetter c = false ∧ c ≠ '_' ∧
        Text.isDigit c = false := by
    cases s <;> decide +kernel
  cases ht : s.text with
  | nil => exact absurd ht s.text_ne_nil
  | cons c cs =>
    obtain ⟨hblank, hminus, hquote, hletter, hlow, hdigit⟩ := hfront c (by rw [ht]; rfl)
    refine ⟨c, cs ++ rest, rfl, splitGap_of_front hblank fun h => absurd h hminus, fun p => ?_⟩
    have hword : startsWord c (cs ++ rest) = false := by
      simp [startsWord, hletter, hlow, hdigit, hminus]
    rw [ht, List.cons_append] at hsplit
    rw [scan, hquote, if_neg Bool.false_ne_true, hword, if_neg Bool.false_ne_true, hsplit]
    dsimp only
    rw [ht]

theorem takeWhile_append_stop {cs rest : Text} (hcs : cs.all isWordPart = true)
    (hrest : ∀ c ∈ rest.head?, isWordPart c = false) :
    (cs ++ rest).takeWhile isWordPart = cs ∧ (cs ++ rest).dropWhile isWordPart = rest := by
  have hall := List.all_eq_true.mp hcs
  rw [List.takeWhile_append_of_pos hall, List.dropWhile_append_of_pos hall]
  cases rest with
  | nil => simp
  | cons c rest =>
    have hc := hrest c rfl
    simp [hc]

theorem scan_word {w : Text} {l : Lexeme} (whole : isWord w = true) (kind : ofWord w = .ok l)
    {rest : Text} (h : ∀ c ∈ rest.head?, isWordPart c = false) :
    ∃ c cs, w ++ rest = c :: cs ∧ splitGap false (c :: cs) = ([], c :: cs) ∧
      ∀ p, scan p c cs = .ok ⟨l, w, rest⟩ := by
  cases w with
  | nil => cases whole
  | cons c cs =>
    obtain ⟨hstart, hall⟩ := Bool.and_eq_true_iff.mp whole
    have hstart := startsWord_append hstart rest
    obtain ⟨htake, hdrop⟩ := takeWhile_append_stop hall h
    refine ⟨c, cs ++ rest, rfl, splitGap_of_startsWord hstart, fun p => ?_⟩
    rw [scan_of_startsWord hstart, htake, hdrop, kind]
    rfl

theorem scan_quoted {q : Text.Point} (quote : q = '\x22' ∨ q = '\x27') {v : Text}
    (last : v.getLast? ≠ some (.char '\\')) (rest : Text) :
    ∃ c cs, q :: (escape q v ++ [q]) ++ rest = c :: cs ∧
      splitGap false (c :: cs) = ([], c :: cs) ∧
      ∀ p, scan p c cs = .ok ⟨.quoted v, q :: (escape q v ++ [q]), rest⟩ := by
  have hq : Text.isBlank q = false ∧ q ≠ '-' ∧ q ≠ '\\' ∧ (q = '\x22' || q = '\x27') = true := by
    rcases quote with rfl | rfl <;> decide
  obtain ⟨hblank, hdash, hback, hquote⟩ := hq
  refine ⟨q, escape q v ++ q :: rest, by simp, ?_, fun p => ?_⟩
  · exact splitGap_of_front hblank fun h => absurd h hdash
  · rw [scan, if_pos hquote, closeQuote_escape hback last]

/-- The lexeme is read from its characters, wherever it can end. -/
theorem Spells.scan {span : Text} {l : Lexeme} (h : Spells span l) {rest : Text}
    (hstop : l.Stops rest) :
    ∃ c cs, span ++ rest = c :: cs ∧ splitGap false (c :: cs) = ([], c :: cs) ∧
      ∀ p, scan p c cs = .ok ⟨l, span, rest⟩ := by
  cases h with
  | symbol s => exact scan_symbol hstop
  | quoted quote last => exact scan_quoted quote last rest
  | word whole kind =>
    rcases ofWord_eq_ok kind with ⟨_, _, _, _, rfl⟩ | ⟨_, _, _, rfl⟩ | ⟨_, _, rfl⟩
    · exact scan_word whole kind hstop
    · exact scan_word whole kind hstop
    · exact scan_word whole kind hstop

/-- The lexeme is the next token, and the lexer goes on right behind it. -/
theorem Spells.tokensFrom {span : Text} {l : Lexeme} (h : Spells span l) {rest : Text}
    (hstop : l.Stops rest) (p : Place) :
    tokensFrom p (span ++ rest) = (tokensFrom (p.after span) rest).map fun ts =>
      ⟨⟨l, p⟩ :: ts.list, ts.stop⟩ := by
  obtain ⟨c, cs, htext, hgap, hscan⟩ := h.scan hstop
  rw [htext, tokensFrom_of_gap_cons hgap, Place.after_nil, hscan]
  rfl

/-- The written form of a readable lexeme spells it. -/
theorem spells_source {l : Lexeme} (h : IsReadable l) : Spells l.source l := by
  cases h with
  | symbol s => exact .symbol s
  | quoted last => exact .quoted (Or.inr rfl) last
  | word whole kind =>
    rcases ofWord_eq_ok kind with ⟨_, _, _, _, rfl⟩ | ⟨_, _, _, rfl⟩ | ⟨_, _, rfl⟩
    · exact .word whole kind
    · exact .word whole kind
    · exact .word whole kind

/-! ### All lexemes of a text -/

inductive LexesTo : Text → List Lexeme → Prop
  | nil {cs : Text} (front : (splitGap false cs).2 = []) : LexesTo cs []
  | cons {cs rest : Text} {c : Text.Point} {p : Place} {t : Scan} {ls : List Lexeme}
      (front : (splitGap false cs).2 = c :: rest) (taken : scan p c rest = .ok t)
      (others : LexesTo t.rest ls) : LexesTo cs (t.lexeme :: ls)

theorem LexesTo.tokensFrom {cs : Text} {ls : List Lexeme} (h : LexesTo cs ls) (p : Place) :
    ∃ ts, tokensFrom p cs = .ok ts ∧ ts.lexemes = ls := by
  induction h generalizing p with
  | nil front =>
    obtain ⟨q, hq⟩ := tokensFrom_of_nil (p := p) front
    exact ⟨_, hq, rfl⟩
  | @cons _ _ _ _ t _ front taken _ ih =>
    obtain ⟨q, hq⟩ := tokensFrom_of_cons p front
    obtain ⟨ts, hts, hls⟩ := ih (q.after t.span)
    rw [scan_place taken q] at hq
    refine ⟨⟨⟨t.lexeme, q⟩ :: ts.list, ts.stop⟩, ?_, congrArg (t.lexeme :: ·) hls⟩
    rw [hq]
    exact map_eq_ok.mpr ⟨ts, hts, rfl⟩

theorem lexesTo_of_tokensFrom {cs : Text} {p : Place} {ts : Tokens}
    (h : Command.tokensFrom p cs = .ok ts) : LexesTo cs ts.lexemes := by
  induction hk : cs.length using Nat.strongRecOn generalizing p cs ts with
  | ind k ih =>
    cases hg : (splitGap false cs).2 with
    | nil =>
      obtain ⟨q, hq⟩ := tokensFrom_of_nil (p := p) hg
      rw [hq] at h
      cases h
      exact .nil hg
    | cons c rest =>
      obtain ⟨q, hq⟩ := tokensFrom_of_cons p hg
      rw [hq] at h
      obtain ⟨t, ht, h⟩ := bind_eq_ok.mp h
      obtain ⟨us, hus, rfl⟩ := map_eq_ok.mp h
      have hlt : t.rest.length < k := by
        have hgap := length_splitGap_le false cs
        have hscan := length_scan_rest_le ht
        rw [hg, List.length_cons] at hgap
        omega
      exact .cons hg ht (ih _ hlt hus rfl)

theorem lexesTo_iff {text : Text} {ls : List Lexeme} :
    LexesTo text ls ↔ ∃ ts, tokens text = .ok ts ∧ ts.lexemes = ls := by
  constructor
  · exact fun h => h.tokensFrom .start
  · rintro ⟨ts, hts, rfl⟩
    exact lexesTo_of_tokensFrom hts

theorem LexesTo.isReadable {cs : Text} {ls : List Lexeme} (h : LexesTo cs ls) :
    ∀ l ∈ ls, IsReadable l := by
  induction h with
  | nil => exact fun l hl => absurd hl List.not_mem_nil
  | cons _ taken _ ih => exact List.forall_mem_cons.mpr ⟨(spells_of_scan taken).isReadable, ih⟩

theorem LexesTo.blank {cs : Text} {ls : List Lexeme} (h : LexesTo cs ls) {c : Text.Point}
    (hc : Text.isBlank c = true) : LexesTo (c :: cs) ls := by
  have hgap : (splitGap false (c :: cs)).2 = (splitGap false cs).2 := by
    rw [splitGap, if_neg Bool.false_ne_true, if_pos hc]
  cases h with
  | nil front => exact .nil (hgap.trans front)
  | cons front taken others => exact .cons (hgap.trans front) taken others

theorem LexesTo.spelled {rest : Text} {ls : List Lexeme} (h : LexesTo rest ls) {span : Text}
    {l : Lexeme} (hl : Spells span l) (hstop : l.Stops rest) : LexesTo (span ++ rest) (l :: ls) := by
  obtain ⟨c, cs, hspan, hfront, hscan⟩ := hl.scan hstop
  rw [hspan]
  exact .cons (congrArg Prod.snd hfront) (hscan .start) h

theorem LexesTo.source {rest : Text} {ls : List Lexeme} (h : LexesTo rest ls) {l : Lexeme}
    (hl : IsReadable l) (hstop : l.Stops rest) : LexesTo (l.source ++ rest) (l :: ls) :=
  h.spelled (spells_source hl) hstop

/-! ### Layout -/

/-- A blank goes between two lexemes, but not after an opening parenthesis, and not before a
parenthesis or a comma. -/
def needsBlank : Lexeme → Lexeme → Bool
  | .symbol .lparen, _ => false
  | _, .symbol s => s ∉ [.lparen, .rparen, .comma]
  | _, _ => true

/-- A text with the given lexemes. -/
def layout : List Lexeme → Text
  | [] => []
  | [l] => l.source
  | l :: m :: ls =>
    l.source ++ if needsBlank l m then .char ' ' :: layout (m :: ls) else layout (m :: ls)

theorem exists_layout_cons (l : Lexeme) (ls : List Lexeme) :
    ∃ rest, layout (l :: ls) = l.source ++ rest := by
  cases ls with
  | nil => exact ⟨[], (List.append_nil _).symm⟩
  | cons m ls => exact ⟨_, rfl⟩

theorem Lexeme.stops_nil (l : Lexeme) : l.Stops [] := by
  cases l with
  | quoted v => trivial
  | symbol s => exact fun h => nomatch h
  | _ => exact fun c hc => nomatch hc

/-- Neither part of a word nor of a longer symbol. -/
theorem Lexeme.stops_cons (l : Lexeme) {c : Text.Point} (hc : isWordPart c = false) (he : c ≠ '=')
    (rest : Text) : l.Stops (c :: rest) := by
  have hhead : ∀ d ∈ (c :: rest).head?, isWordPart d = false := fun d hd =>
    Option.some.inj hd ▸ hc
  cases l with
  | quoted v => trivial
  | symbol s => exact fun h => absurd (Option.some.inj h) he
  | _ => exact hhead

theorem stops_layout (l m : Lexeme) (ls : List Lexeme) :
    l.Stops (if needsBlank l m then .char ' ' :: layout (m :: ls) else layout (m :: ls)) := by
  obtain ⟨rest, hrest⟩ := exists_layout_cons m ls
  split
  · exact l.stops_cons (by decide +kernel) (by decide) _
  · next hneeds =>
    unfold needsBlank at hneeds
    split at hneeds
    · exact fun _ => by decide
    · next s _ =>
      have hs : s ∈ [.lparen, .rparen, .comma] :=
        Decidable.byContradiction fun h => hneeds (decide_eq_true h)
      have hsymbol : ∃ c, s.text = [c] ∧ isWordPart c = false ∧ c ≠ '=' := by
        simp only [List.mem_cons, List.not_mem_nil, or_false] at hs
        rcases hs with rfl | rfl | rfl <;> exact ⟨_, rfl, by decide +kernel, by decide⟩
      obtain ⟨c, hc, hpart, he⟩ := hsymbol
      rw [hrest]
      show l.Stops (s.text ++ rest)
      rw [hc]
      exact l.stops_cons hpart he rest
    · exact absurd rfl hneeds

theorem lexesTo_layout {ls : List Lexeme} (h : ∀ l ∈ ls, IsReadable l) :
    LexesTo (layout ls) ls := by
  induction ls with
  | nil => exact .nil rfl
  | cons l ls ih =>
    obtain ⟨hl, hls⟩ := List.forall_mem_cons.mp h
    cases ls with
    | nil =>
      have hnil : LexesTo [] [] := .nil rfl
      have hsource := hnil.source hl l.stops_nil
      rwa [List.append_nil] at hsource
    | cons m ls =>
      have hrest := ih hls
      refine LexesTo.source ?_ hl (stops_layout l m ls)
      split
      · exact hrest.blank (by decide)
      · exact hrest

end TableAlgebra.Command
