import Mathlib.Data.List.Induction
import TableAlgebra.Proofs.Command.Lexemes

/-!
# Blanks around a command

Blanks before and after a command say nothing: the lexemes of a text are those of what is left when
both ends are stripped, and so is the statement.

* `scan_append_blank`       a lexeme at the front of a text, and a blank at the end;
* `lexesTo_append_blank`    all the lexemes of the text;
* `statement_strip`         a command means what it means without the blanks around it.
-/

namespace TableAlgebra.Command

/-! ### A blank at the end -/

section
variable {b : Text.Point} (hb : Text.isBlank b = true)
include hb

theorem ne_of_isBlank {c : Text.Point} (hc : Text.isBlank c = false) : b ≠ c := by
  rintro rfl
  exact Bool.false_ne_true (hc.symm.trans hb)

theorem not_isWordPart_of_isBlank : isWordPart b = false :=
  Bool.eq_false_iff.mpr fun h => ne_of_isBlank hb (not_isBlank_of_isWordPart h) rfl

theorem head?_append_blank {c : Text.Point} (hc : Text.isBlank c = false) (cs : Text) :
    (cs ++ [b]).head? = some c ↔ cs.head? = some c := by
  cases cs with
  | nil =>
    exact iff_of_false (fun h => ne_of_isBlank hb hc (Option.some.inj h)) (fun h => nomatch h)
  | cons d cs => exact Iff.rfl

/-- The blank is part of the last gap. -/
theorem splitGap_append_blank (inComment : Bool) (cs : Text) :
    (splitGap inComment (cs ++ [b])).2 =
      if (splitGap inComment cs).2 = [] then [] else (splitGap inComment cs).2 ++ [b] := by
  induction cs generalizing inComment with
  | nil =>
    cases inComment with
    | true => rfl
    | false =>
      show (splitGap false [b]).2 = []
      rw [splitGap, if_neg Bool.false_ne_true, if_pos hb]
      rfl
  | cons c cs ih =>
    have hdash : decide ((cs ++ [b]).head? = some '-') = decide (cs.head? = some '-') :=
      decide_eq_decide.mpr (head?_append_blank hb (by decide) cs)
    rw [List.cons_append, splitGap, splitGap, hdash]
    split
    · exact ih _
    · split
      · exact ih _
      · split
        · exact ih _
        · exact (if_neg (List.cons_ne_nil c cs)).symm

theorem closeQuote_append_blank {q : Text.Point} (hq : Text.isBlank q = false) (cs : Text) :
    closeQuote q (cs ++ [b]) = (closeQuote q cs).map fun t => { t with rest := t.rest ++ [b] } := by
  have hne := ne_of_isBlank hb hq
  fun_induction closeQuote q cs with
  | case1 => exact if_neg hne
  | case2 => simp [closeQuote]
  | case3 c hc => simp [closeQuote, hc, hne]
  | case4 => simp [closeQuote]
  | case5 c d cs hc hd ih =>
    show closeQuote q (c :: d :: (cs ++ [b])) = _
    rw [closeQuote, if_neg hc, if_pos hd, ih, Option.map_map, Option.map_map]
    rfl
  | case6 c d cs hc hd ih =>
    show closeQuote q (c :: d :: (cs ++ [b])) = _
    rw [closeQuote, if_neg hc, if_neg hd, ← List.cons_append, ih, Option.map_map, Option.map_map]
    rfl

theorem splitSymbol?_append_blank (c : Text.Point) (cs : Text) :
    splitSymbol? (c :: (cs ++ [b])) =
      (splitSymbol? (c :: cs)).map fun t => (t.1, t.2 ++ [b]) := by
  have hnext : ∀ ds, cs ++ [b] = .char '=' :: ds → ∃ es, cs = .char '=' :: es := by
    intro ds h
    have hhead := (head?_append_blank hb (by decide) cs).mp (congrArg List.head? h)
    exact List.head?_eq_some_iff.mp hhead
  generalize hfront : c :: cs = front
  fun_cases splitSymbol? front with
  | case1 | case2 | case3 | case7 | case8 | case9 | case10 =>
    obtain ⟨rfl, rfl⟩ := List.cons.inj hfront
    rfl
  | case4 ds h | case5 ds h | case6 ds h =>
    obtain ⟨rfl, rfl⟩ := List.cons.inj hfront
    rw [splitSymbol?]
    · rfl
    · intro es he
      obtain ⟨fs, hfs⟩ := hnext es he
      exact h fs hfs
  | case11 =>
    subst hfront
    rw [Option.map_none, splitSymbol?]
    all_goals simp_all

theorem startsWord_append_blank (c : Text.Point) (cs : Text) :
    startsWord c (cs ++ [b]) = startsWord c cs := by
  cases cs with
  | nil =>
    have hdigit : Text.isDigit b = false := Bool.eq_false_iff.mpr fun h =>
      Bool.false_ne_true ((not_isWordPart_of_isBlank hb).symm.trans (isWordPart_of_isDigit h))
    show (_ || (_ && Text.isDigit b)) = (_ || (_ && false))
    rw [hdigit]
  | cons d cs => rfl

theorem takeWhile_append_blank (cs : Text) :
    (cs ++ [b]).takeWhile isWordPart = cs.takeWhile isWordPart ∧
      (cs ++ [b]).dropWhile isWordPart = cs.dropWhile isWordPart ++ [b] := by
  have hstop : ∀ c ∈ (cs.dropWhile isWordPart ++ [b]).head?, isWordPart c = false := by
    intro c hc
    have hhead := List.head?_dropWhile_not isWordPart cs
    cases hd : cs.dropWhile isWordPart with
    | nil =>
      rw [hd] at hc
      cases hc
      exact not_isWordPart_of_isBlank hb
    | cons d ds =>
      rw [hd] at hc hhead
      cases hc
      simpa using hhead
  have hall : (cs.takeWhile isWordPart).all isWordPart = true := List.all_takeWhile
  have hparts := takeWhile_append_stop hall hstop
  rwa [← List.append_assoc, List.takeWhile_append_dropWhile] at hparts

/-- The blank is left over. -/
theorem scan_append_blank (p : Place) (c : Text.Point) (cs : Text) :
    scan p c (cs ++ [b]) = (scan p c cs).map fun t => { t with rest := t.rest ++ [b] } := by
  unfold scan
  rw [startsWord_append_blank hb, splitSymbol?_append_blank hb]
  split
  · next hc =>
    have hquote : Text.isBlank c = false := by
      rw [Bool.or_eq_true, decide_eq_true_iff, decide_eq_true_iff] at hc
      rcases hc with rfl | rfl <;> decide
    rw [closeQuote_append_blank hb hquote]
    cases closeQuote c cs <;> rfl
  · split
    · obtain ⟨htake, hdrop⟩ := takeWhile_append_blank hb cs
      rw [htake, hdrop]
      cases ofWord (c :: cs.takeWhile isWordPart) <;> rfl
    · cases splitSymbol? (c :: cs) <;> rfl

theorem lexesTo_append_blank {cs : Text} {ls : List Lexeme} :
    LexesTo (cs ++ [b]) ls ↔ LexesTo cs ls := by
  constructor
  · intro h
    generalize ht : cs ++ [b] = text at h
    induction h generalizing cs with
    | nil front =>
      subst ht
      rw [splitGap_append_blank hb] at front
      split at front
      · next hnil => exact .nil hnil
      · exact absurd front (by simp)
    | @cons _ rest c p t ls front taken others ih =>
      subst ht
      rw [splitGap_append_blank hb] at front
      split at front
      · cases front
      · next hne =>
        obtain ⟨d, us, hgap⟩ := List.exists_cons_of_ne_nil hne
        rw [hgap, List.cons_append] at front
        obtain ⟨rfl, rfl⟩ := List.cons.inj front
        rw [scan_append_blank hb] at taken
        obtain ⟨u, hu, rfl⟩ := map_eq_ok.mp taken
        exact LexesTo.cons (t := u) hgap hu (ih rfl)
  · intro h
    induction h with
    | nil front => exact .nil (by rw [splitGap_append_blank hb, if_pos front])
    | @cons cs rest c p t ls front taken others ih =>
      have hfront : (splitGap false (cs ++ [b])).2 = c :: (rest ++ [b]) := by
        rw [splitGap_append_blank hb, front, if_neg (List.cons_ne_nil c rest), List.cons_append]
      refine LexesTo.cons (t := { t with rest := t.rest ++ [b] }) (p := p) hfront ?_ ih
      rw [scan_append_blank hb]
      exact map_eq_ok.mpr ⟨t, taken, rfl⟩

theorem lexesTo_cons_blank {cs : Text} {ls : List Lexeme} :
    LexesTo (b :: cs) ls ↔ LexesTo cs ls := by
  refine ⟨fun h => ?_, fun h => h.blank hb⟩
  have hgap : (splitGap false (b :: cs)).2 = (splitGap false cs).2 := by
    rw [splitGap, if_neg Bool.false_ne_true, if_pos hb]
  cases h with
  | nil front => exact .nil (hgap.symm.trans front)
  | cons front taken others => exact .cons (hgap.symm.trans front) taken others

end

/-! ### Comments -/

/-- A comment runs to the end of its line. -/
theorem splitGap_comment {t : Text} (h : .char '\n' ∉ t) : (splitGap true t).2 = [] := by
  induction t with
  | nil => rfl
  | cons c t ih =>
    have hc : (c != .char '\n') = true := bne_iff_ne.mpr fun e => h (e ▸ List.mem_cons_self)
    rw [splitGap, if_pos rfl, hc]
    exact ih fun hm => h (List.mem_cons_of_mem _ hm)

/-! ### Stripping -/

theorem lexesTo_dropWhile {cs : Text} {ls : List Lexeme} :
    LexesTo (cs.dropWhile Text.isBlank) ls ↔ LexesTo cs ls := by
  induction cs with
  | nil => exact Iff.rfl
  | cons c cs ih =>
    by_cases hc : Text.isBlank c = true
    · rw [List.dropWhile_cons_of_pos hc, ih, lexesTo_cons_blank hc]
    · rw [List.dropWhile_cons_of_neg hc]

theorem lexesTo_dropEndWhile {cs : Text} {ls : List Lexeme} :
    LexesTo (Text.dropEndWhile Text.isBlank cs) ls ↔ LexesTo cs ls := by
  induction cs using List.reverseRecOn with
  | nil => exact Iff.rfl
  | append_singleton cs c ih =>
    unfold Text.dropEndWhile at ih ⊢
    rw [List.reverse_append, List.reverse_singleton, List.singleton_append]
    by_cases hc : Text.isBlank c = true
    · rw [List.dropWhile_cons_of_pos hc, ih, lexesTo_append_blank hc]
    · rw [List.dropWhile_cons_of_neg hc, List.reverse_cons, List.reverse_reverse]

theorem lexesTo_strip {text : Text} {ls : List Lexeme} :
    LexesTo text.strip ls ↔ LexesTo text ls :=
  lexesTo_dropEndWhile.trans lexesTo_dropWhile

theorem statement_eq_ok {text : Text} {st : Statement} :
    statement text = .ok st ↔ ∃ ls, Derives ls st ∧
      (LexesTo text ls ∨ LexesTo text (ls ++ [.symbol .semicolon])) := by
  constructor
  · intro h
    obtain ⟨ts, hts, h⟩ := bind_eq_ok.mp h
    obtain ⟨ls, hls, hlexemes⟩ := Tokens.statement_eq_ok.mp h
    refine ⟨ls, hls, hlexemes.imp (fun he => ?_) (fun he => ?_)⟩
    · exact lexesTo_iff.mpr ⟨ts, hts, he⟩
    · exact lexesTo_iff.mpr ⟨ts, hts, he⟩
  · rintro ⟨ls, hls, h | h⟩
    · obtain ⟨ts, hts, he⟩ := lexesTo_iff.mp h
      exact bind_eq_ok.mpr ⟨ts, hts, Tokens.statement_eq_ok.mpr ⟨ls, hls, Or.inl he⟩⟩
    · obtain ⟨ts, hts, he⟩ := lexesTo_iff.mp h
      exact bind_eq_ok.mpr ⟨ts, hts, Tokens.statement_eq_ok.mpr ⟨ls, hls, Or.inr he⟩⟩

/-- The blanks around a command do not matter. -/
theorem statement_strip {text : Text} {st : Statement} :
    statement text.strip = .ok st ↔ statement text = .ok st := by
  simp only [statement_eq_ok, lexesTo_strip]

end TableAlgebra.Command
