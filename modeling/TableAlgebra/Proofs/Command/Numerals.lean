import TableAlgebra.Command.Lexer
import TableAlgebra.Proofs.Outcome

/-!
# Numerals that are too long for the lexer

The lexer refuses a text in two ways only: with a fault at a place, or because a numeral in it has
more than `maxDigits` digits. The second is no fault of the command language.

* `Takes`                     what is left of a text after some of its lexemes;
* `HasLongNumeral n text`     a numeral of `n > maxDigits` digits comes after lexemes of the text;
* `tokens_eq_tooManyDigits`   that, and nothing else, is the second way;
* `tokensFrom_eq_error`       there is no third one.
-/

namespace TableAlgebra.Command

open Text (Numeral)

/-! ### One lexeme -/

/-- The word that starts with `c` is a numeral of `n` digits. -/
def IsNumeral (n : Nat) (c : Text.Point) (rest : Text) : Prop :=
  ∃ num, Numeral.ofWord? (c :: rest.takeWhile isWordPart) = some num ∧ num.digits.length = n

theorem startsWord_of_isDigit {c : Text.Point} (h : Text.isDigit c = true) (rest : Text) :
    startsWord c rest = true := by
  rw [startsWord, h, Bool.or_true, Bool.true_or]

theorem startsWord_of_isNumeral {n : Nat} {c : Text.Point} {rest : Text}
    (h : IsNumeral n c rest) : startsWord c rest = true := by
  obtain ⟨num, hnum, _⟩ := h
  rw [Numeral.ofWord?] at hnum
  split at hnum
  · next hc =>
    obtain ⟨_, hne, hdigits⟩ := Numeral.ofDigits?_eq_some.mp hnum
    cases rest with
    | nil => exact absurd rfl hne
    | cons d rest =>
      have hd : isWordPart d = true := Decidable.byContradiction fun hd =>
        hne (List.takeWhile_cons_of_neg hd)
      rw [List.takeWhile_cons_of_pos hd] at hdigits
      have hdigit := hdigits d List.mem_cons_self
      rw [hc, startsWord]
      show (_ || (_ && Text.isDigit d)) = true
      rw [hdigit]
      exact Bool.or_true _
  · obtain ⟨_, _, hdigits⟩ := Numeral.ofDigits?_eq_some.mp hnum
    exact startsWord_of_isDigit (hdigits c List.mem_cons_self) rest

theorem not_quote_of_startsWord {c : Text.Point} {rest : Text} (h : startsWord c rest = true) :
    (c = '\x22' || c = '\x27') = false := by
  refine Bool.eq_false_iff.mpr fun hq => ?_
  rw [Bool.or_eq_true, decide_eq_true_iff, decide_eq_true_iff] at hq
  rcases hq with rfl | rfl <;> cases h

theorem ofWord_eq_error {w : Text} {e : Error} :
    ofWord w = .error e ↔ ∃ num, Numeral.ofWord? w = some num ∧
      Numeral.maxDigits < num.digits.length ∧ e = .tooManyDigits num.digits.length := by
  unfold ofWord
  cases hw : Numeral.ofWord? w with
  | none =>
    dsimp only
    constructor
    · intro h
      split at h <;> cases h
    · rintro ⟨_, h, _⟩
      cases h
  | some num =>
    dsimp only
    rw [map_eq_error, mapError_eq_error]
    constructor
    · rintro ⟨k, hk, rfl⟩
      refine ⟨num, rfl, ?_⟩
      rw [Numeral.value] at hk
      split at hk
      · cases hk
      · next hl =>
        cases hk
        exact ⟨Nat.lt_of_not_le hl, rfl⟩
    · rintro ⟨_, h, hl, rfl⟩
      cases h
      exact ⟨_, Numeral.value_of_lt_length hl, rfl⟩

theorem scan_of_startsWord {c : Text.Point} {rest : Text} (h : startsWord c rest = true)
    (p : Place) :
    scan p c rest = (ofWord (c :: rest.takeWhile isWordPart)).map fun l =>
      ⟨l, c :: rest.takeWhile isWordPart, rest.dropWhile isWordPart⟩ := by
  rw [scan, not_quote_of_startsWord h, if_neg Bool.false_ne_true, if_pos h]

theorem scan_eq_error {p : Place} {c : Text.Point} {rest : Text} {e : Error}
    (h : scan p c rest = .error e) :
    (∃ f, e = .command f p) ∨
      ∃ n, IsNumeral n c rest ∧ Numeral.maxDigits < n ∧ e = .tooManyDigits n := by
  by_cases hw : startsWord c rest = true
  · rw [scan_of_startsWord hw, map_eq_error, ofWord_eq_error] at h
    obtain ⟨num, hnum, hl, rfl⟩ := h
    exact Or.inr ⟨_, ⟨num, hnum, rfl⟩, hl, rfl⟩
  · left
    unfold scan at h
    rw [if_neg hw] at h
    split at h
    · split at h
      · cases h
      · cases h
        exact ⟨_, rfl⟩
    · split at h
      · cases h
      · cases h
        exact ⟨_, rfl⟩

theorem scan_of_isNumeral {n : Nat} {c : Text.Point} {rest : Text} (h : IsNumeral n c rest)
    (hl : Numeral.maxDigits < n) (p : Place) : scan p c rest = .error (.tooManyDigits n) := by
  rw [scan_of_startsWord (startsWord_of_isNumeral h), map_eq_error, ofWord_eq_error]
  obtain ⟨num, hnum, rfl⟩ := h
  exact ⟨num, hnum, hl, rfl⟩

/-- Whether a lexeme can be taken does not depend on where it stands. -/
theorem scan_place {p : Place} {c : Text.Point} {rest : Text} {t : Scan}
    (h : scan p c rest = .ok t) (q : Place) : scan q c rest = .ok t := by
  unfold scan at h ⊢
  split at h
  · next hq =>
    rw [if_pos hq]
    split at h
    · exact h
    · cases h
  · next hq =>
    rw [if_neg hq]
    split at h
    · next hw =>
      rw [if_pos hw]
      exact h
    · next hw =>
      rw [if_neg hw]
      split at h
      · exact h
      · cases h

/-! ### All lexemes of a text -/

/-- After some lexemes, taken one by one from the front, `left` is left of the text. -/
inductive Takes : Text → Text → Prop
  | nothing (cs : Text) : Takes cs cs
  | lexeme {cs rest left : Text} {c : Text.Point} {p : Place} {t : Scan}
      (front : (splitGap false cs).2 = c :: rest) (taken : scan p c rest = .ok t)
      (others : Takes t.rest left) : Takes cs left

/-- A numeral of `n` digits comes next, or after some lexemes of the text, and is too long. -/
def HasLongNumeral (n : Nat) (text : Text) : Prop :=
  Numeral.maxDigits < n ∧ ∃ left c rest, Takes text left ∧ (splitGap false left).2 = c :: rest ∧
    IsNumeral n c rest

theorem tokensFrom_of_gap {cs gap : Text} (h : splitGap false cs = (gap, [])) (p : Place) :
    tokensFrom p cs = .ok ⟨[], p.after gap⟩ := by
  rw [tokensFrom]
  split
  · next hg =>
    rw [h] at hg
    cases hg
    rfl
  · next hg =>
    rw [h] at hg
    cases hg

theorem tokensFrom_of_gap_cons {cs gap rest : Text} {c : Text.Point}
    (h : splitGap false cs = (gap, c :: rest)) (p : Place) :
    tokensFrom p cs = scan (p.after gap) c rest >>= fun t =>
      (tokensFrom ((p.after gap).after t.span) t.rest).map fun ts =>
        ⟨⟨t.lexeme, p.after gap⟩ :: ts.list, ts.stop⟩ := by
  rw [tokensFrom]
  split
  · next hg =>
    rw [h] at hg
    cases hg
  · next hg =>
    rw [h] at hg
    cases hg
    cases scan (p.after gap) c rest <;> rfl

theorem tokensFrom_of_nil {p : Place} {cs : Text} (h : (splitGap false cs).2 = []) :
    ∃ q, tokensFrom p cs = .ok ⟨[], q⟩ :=
  ⟨_, tokensFrom_of_gap (Prod.ext rfl h) p⟩

theorem tokensFrom_of_cons (p : Place) {cs rest : Text} {c : Text.Point}
    (h : (splitGap false cs).2 = c :: rest) :
    ∃ q, tokensFrom p cs = scan q c rest >>= fun t =>
      (tokensFrom (q.after t.span) t.rest).map fun ts => ⟨⟨t.lexeme, q⟩ :: ts.list, ts.stop⟩ :=
  ⟨_, tokensFrom_of_gap_cons (Prod.ext rfl h) p⟩

theorem tokensFrom_of_takes {n : Nat} {cs left rest : Text} {c : Text.Point} (h : Takes cs left)
    (hc : (splitGap false left).2 = c :: rest) (hn : IsNumeral n c rest)
    (hl : Numeral.maxDigits < n) (p : Place) : tokensFrom p cs = .error (.tooManyDigits n) := by
  induction h generalizing p with
  | nothing cs =>
    obtain ⟨q, hq⟩ := tokensFrom_of_cons p hc
    rw [hq, scan_of_isNumeral hn hl]
    rfl
  | lexeme front taken _ ih =>
    obtain ⟨q, hq⟩ := tokensFrom_of_cons p front
    rw [hq, scan_place taken q]
    exact map_eq_error.mpr (ih hc _)

theorem tokensFrom_eq_error {p : Place} {cs : Text} {e : Error} (h : tokensFrom p cs = .error e) :
    (∃ f q, e = .command f q) ∨ ∃ n, HasLongNumeral n cs ∧ e = .tooManyDigits n := by
  induction hk : cs.length using Nat.strongRecOn generalizing p cs with
  | ind k ih =>
    cases hg : (splitGap false cs).2 with
    | nil =>
      obtain ⟨ts, hts⟩ := tokensFrom_of_nil (p := p) hg
      rw [hts] at h
      cases h
    | cons c rest =>
      obtain ⟨q, hq⟩ := tokensFrom_of_cons p hg
      rw [hq] at h
      rcases bind_eq_error.mp h with h | ⟨t, ht, h⟩
      · rcases scan_eq_error h with ⟨f, rfl⟩ | ⟨n, hn, hl, rfl⟩
        · exact Or.inl ⟨f, q, rfl⟩
        · exact Or.inr ⟨n, ⟨hl, cs, c, rest, .nothing cs, hg, hn⟩, rfl⟩
      · have hlt : t.rest.length < k := by
          have h1 := length_splitGap_le false cs
          have h2 := length_scan_rest_le ht
          rw [hg, List.length_cons] at h1
          omega
        rcases ih _ hlt (map_eq_error.mp h) rfl with hf | ⟨n, ⟨hl, left, d, others, hd⟩, rfl⟩
        · exact Or.inl hf
        · exact Or.inr ⟨n, ⟨hl, left, d, others, .lexeme hg ht hd.1, hd.2⟩, rfl⟩

theorem tokens_eq_tooManyDigits {text : Text} {n : Nat} :
    tokens text = .error (.tooManyDigits n) ↔ HasLongNumeral n text := by
  constructor
  · intro h
    rcases tokensFrom_eq_error h with ⟨f, q, hf⟩ | ⟨m, hm, hf⟩
    · cases hf
    · cases hf
      exact hm
  · rintro ⟨hl, left, c, rest, ht, hc, hn⟩
    exact tokensFrom_of_takes ht hc hn hl _

/-- The shortest such texts: digits and nothing else. -/
theorem hasLongNumeral_replicate {n : Nat} (h : Numeral.maxDigits < n) :
    HasLongNumeral n (List.replicate n (.char '1')) := by
  cases n with
  | zero => exact absurd h (Nat.not_lt_zero _)
  | succ n =>
    have hword : (List.replicate n (.char '1')).takeWhile isWordPart =
        List.replicate n (.char '1') := by
      rw [List.takeWhile_replicate, if_pos (by decide +kernel)]
    refine ⟨h, _, .char '1', List.replicate n (.char '1'), .nothing _, ?_, ?_⟩
    · rw [List.replicate_succ, splitGap, if_neg Bool.false_ne_true, if_neg (by decide +kernel),
        if_neg fun e => absurd (Bool.and_eq_true_iff.mp e).1 (by decide)]
    · refine ⟨⟨false, List.replicate (n + 1) (.char '1')⟩, ?_, List.length_replicate⟩
      rw [hword, Numeral.ofWord?, if_neg (by decide)]
      refine Numeral.ofDigits?_eq_some.mpr ⟨rfl, List.cons_ne_nil _ _, fun p hp => ?_⟩
      rw [← List.replicate_succ] at hp
      rw [List.eq_of_mem_replicate hp]
      decide +kernel

end TableAlgebra.Command
