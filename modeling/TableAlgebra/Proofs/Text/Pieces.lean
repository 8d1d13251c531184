import Mathlib.Algebra.Ring.Nat
import TableAlgebra.Storage.Record
import TableAlgebra.Text.Lines

/-!
# Cutting what was put together

Texts put together with separators come apart again, and the pieces of any text hold no separator.

* `dropEndWhile_cons`, `head?_dropEndWhile`   what is dropped from the end leaves the front alone;
* `mem_joined_iff`       what joined pieces are made of;
* `length_joined`, `prefix_drop_joined`   how long joined pieces are, and where each of them starts;
* `splitOn_joined`       splitting at a separator undoes joining with it;
* `textLines_flatMap`    the lines of a text that was written line by line;
* `mem_splitOn`, `mem_textLines`, `mem_unifyLineEnds`   what the pieces of a text are made of;
* `splitLines_eq_self`, `splitLines_append_newline`   the lines of one line, and of two scripts with
                        a line feed between them;
* `exists_line`          a line of a file is a text without line ends, perhaps with one after it.
-/

namespace TableAlgebra.Text

/-! ### Dropping from the end -/

theorem dropEndWhile_cons {p : Point → Bool} {c : Point} (h : p c = false) (t : Text) :
    dropEndWhile p (c :: t) = c :: dropEndWhile p t := by
  have hc : ¬p c = true := by
    rw [h]
    exact Bool.false_ne_true
  unfold dropEndWhile
  rw [List.reverse_cons, List.dropWhile_append]
  split
  · next hnil =>
    rw [List.isEmpty_iff.mp hnil, List.dropWhile_cons_of_neg hc]
    rfl
  · rw [List.reverse_append]
    rfl

theorem head?_dropEndWhile {p : Point → Bool} {t : Text} {c : Point} (h : p c = false) :
    (dropEndWhile p t).head? = some c ↔ t.head? = some c := by
  constructor
  · intro hc
    have hprefix : dropEndWhile p t <+: t := by
      have hsuffix := List.reverse_prefix.mpr (List.dropWhile_suffix (l := t.reverse) p)
      rwa [List.reverse_reverse] at hsuffix
    obtain ⟨rest, hrest⟩ := hprefix
    rw [← hrest, List.head?_append, hc]
    rfl
  · intro hc
    obtain ⟨rest, rfl⟩ := List.head?_eq_some_iff.mp hc
    rw [dropEndWhile_cons h]
    rfl

/-! ### Pieces and separators -/

theorem joined_cons (separator t : Text) (ts : List Text) :
    joined separator (t :: ts) = t ++ ts.flatMap (separator ++ ·) := by
  induction ts generalizing t with
  | nil => exact List.intercalate_singleton.trans (List.append_nil t).symm
  | cons u ts ih =>
    calc joined separator (t :: u :: ts)
        = t ++ separator ++ joined separator (u :: ts) := List.intercalate_cons_cons
      _ = t ++ (u :: ts).flatMap (separator ++ ·) := by
          rw [ih, List.flatMap_cons, List.append_assoc, List.append_assoc]

/-- Every piece comes right after the earlier pieces, with a separator after each of them. -/
theorem joined_append_cons (separator : Text) (before : List Text) (t : Text) (after : List Text) :
    joined separator (before ++ t :: after) =
      before.flatMap (· ++ separator) ++ joined separator (t :: after) := by
  induction before with
  | nil => rfl
  | cons u before ih =>
    have hne : before ++ t :: after ≠ [] := by simp
    obtain ⟨v, vs, hcons⟩ := List.exists_cons_of_ne_nil hne
    rw [List.cons_append, List.flatMap_cons, List.append_assoc, ← ih, hcons]
    exact List.intercalate_cons_cons

theorem mem_joined {separator : Text} {ts : List Text} {p : Point}
    (h : p ∈ joined separator ts) : p ∈ separator ∨ ∃ t ∈ ts, p ∈ t := by
  cases ts with
  | nil => cases h
  | cons t ts =>
    rw [joined_cons] at h
    rcases List.mem_append.mp h with h | h
    · exact Or.inr ⟨t, List.mem_cons_self, h⟩
    · obtain ⟨u, hu, h⟩ := List.mem_flatMap.mp h
      exact (List.mem_append.mp h).imp id fun h => ⟨u, List.mem_cons_of_mem _ hu, h⟩

theorem mem_joined_iff {separator : Text} {ts : List Text} {p : Point} (h : p ∉ separator) :
    p ∈ joined separator ts ↔ ∃ t ∈ ts, p ∈ t := by
  refine ⟨fun hp => (mem_joined hp).resolve_left h, ?_⟩
  rintro ⟨t, ht, hp⟩
  obtain ⟨before, after, rfl⟩ := List.append_of_mem ht
  rw [joined_append_cons, joined_cons]
  exact List.mem_append_right _ (List.mem_append_left _ hp)

theorem length_joined (separator : Text) (ts : List Text) :
    (joined separator ts).length =
      (ts.map List.length).sum + separator.length * (ts.length - 1) := by
  cases ts with
  | nil => rfl
  | cons t ts =>
    have hrest : (ts.flatMap (separator ++ ·)).length =
        (ts.map List.length).sum + separator.length * ts.length := by
      induction ts with
      | nil => rfl
      | cons u ts ih =>
        rw [List.flatMap_cons, List.length_append, List.length_append, ih, List.map_cons,
          List.sum_cons, List.length_cons, Nat.mul_succ]
        omega
    rw [joined_cons, List.length_append, hrest, List.map_cons, List.sum_cons, List.length_cons,
      Nat.add_sub_cancel, Nat.add_assoc]

/-- The piece at a position starts behind the pieces and separators before it. -/
theorem prefix_drop_joined (separator : Text) {ts : List Text} {i : Nat} (h : i < ts.length) :
    ts[i] <+: (joined separator ts).drop
      ((ts.take i).map fun t => t.length + separator.length).sum := by
  have hsplit : ts = ts.take i ++ ts[i] :: ts.drop (i + 1) := by
    rw [← List.drop_eq_getElem_cons h, List.take_append_drop]
  have hjoined : joined separator ts =
      (ts.take i).flatMap (· ++ separator) ++ joined separator (ts[i] :: ts.drop (i + 1)) := by
    rw [← joined_append_cons, ← hsplit]
  have hbefore : ((ts.take i).flatMap (· ++ separator)).length =
      ((ts.take i).map fun t => t.length + separator.length).sum := by
    simp [List.length_flatMap]
  rw [hjoined, List.drop_left' hbefore, joined_cons]
  exact List.prefix_append _ _

/-! ### Splitting at a separator -/

theorem consHead_eq_modifyHead {p : Point} {ts : List Text} (h : ts ≠ []) :
    consHead p ts = ts.modifyHead (p :: ·) := by
  cases ts with
  | nil => exact absurd rfl h
  | cons t ts => rfl

theorem splitOn_eq (sep : Point) (t : Text) : splitOn sep t = List.splitOn sep t := by
  induction t with
  | nil => rfl
  | cons p t ih =>
    rw [splitOn, List.splitOn_cons_eq_if_modifyHead, ih,
      consHead_eq_modifyHead (List.splitOn_ne_nil sep t)]
    by_cases h : p = sep
    · rw [if_pos h, if_pos (beq_iff_eq.mpr h)]
    · rw [if_neg h, if_neg (mt beq_iff_eq.mp h)]

theorem splitOn_joined {sep : Point} {ts : List Text} (hne : ts ≠ []) (h : ∀ t ∈ ts, sep ∉ t) :
    splitOn sep (joined [sep] ts) = ts := by
  rw [splitOn_eq, joined]
  exact List.splitOn_intercalate sep h hne

theorem mem_consHead {p : Point} {ts : List Text} {u : Text} (h : u ∈ consHead p ts) :
    u = [p] ∨ (∃ t ∈ ts, u = p :: t) ∨ u ∈ ts := by
  cases ts with
  | nil => exact Or.inl (List.mem_singleton.mp h)
  | cons t ts =>
    rcases List.mem_cons.mp h with rfl | h
    · exact Or.inr (Or.inl ⟨t, List.mem_cons_self, rfl⟩)
    · exact Or.inr (Or.inr (List.mem_cons_of_mem _ h))

/-- A piece holds no separator, and nothing but what the text holds. -/
theorem mem_splitOn {sep : Point} {t u : Text} (h : u ∈ splitOn sep t) :
    ∀ p ∈ u, p ≠ sep ∧ p ∈ t := by
  induction t generalizing u with
  | nil =>
    rw [List.mem_singleton.mp h]
    exact fun p hp => absurd hp List.not_mem_nil
  | cons q t ih =>
    have lift : ∀ {v}, v ∈ splitOn sep t → ∀ p ∈ v, p ≠ sep ∧ p ∈ q :: t :=
      fun hv p hp => ⟨(ih hv p hp).1, List.mem_cons_of_mem _ (ih hv p hp).2⟩
    rw [splitOn] at h
    by_cases hq : q = sep
    · rw [if_pos hq] at h
      rcases List.mem_cons.mp h with rfl | h
      · exact fun p hp => absurd hp List.not_mem_nil
      · exact lift h
    · rw [if_neg hq] at h
      have hself : q ≠ sep ∧ q ∈ q :: t := ⟨hq, List.mem_cons_self⟩
      rcases mem_consHead h with rfl | ⟨v, hv, rfl⟩ | h
      · intro p hp
        rw [List.mem_singleton.mp hp]
        exact hself
      · intro p hp
        rcases List.mem_cons.mp hp with rfl | hp
        · exact hself
        · exact lift hv p hp
      · exact lift h

/-! ### Lines -/

theorem textLines_append_newline {t : Text} (h : .char '\n' ∉ t) (u : Text) :
    textLines (t ++ .char '\n' :: u) = (t ++ [.char '\n']) :: textLines u := by
  induction t with
  | nil => rfl
  | cons p t ih =>
    have hp : p ≠ .char '\n' := fun e => h (e ▸ List.mem_cons_self)
    rw [List.cons_append, textLines, if_neg hp, ih fun hm => h (List.mem_cons_of_mem _ hm)]
    rfl

theorem textLines_flatMap {ts : List Text} (h : ∀ t ∈ ts, .char '\n' ∉ t) :
    textLines (ts.flatMap (· ++ [.char '\n'])) = ts.map (· ++ [.char '\n']) := by
  induction ts with
  | nil => rfl
  | cons t ts ih =>
    rw [List.flatMap_cons, List.append_assoc, List.singleton_append,
      textLines_append_newline (h t List.mem_cons_self),
      ih fun u hu => h u (List.mem_cons_of_mem _ hu), List.map_cons]

/-- A line is a text without a line feed, with a line feed after it unless the text ends there. -/
theorem mem_textLines {t line : Text} (h : line ∈ textLines t) :
    ∃ body, (line = body ++ [.char '\n'] ∨ line = body) ∧ ∀ p ∈ body, p ≠ .char '\n' ∧ p ∈ t := by
  induction t generalizing line with
  | nil => cases h
  | cons q t ih =>
    have lift : ∀ {body : Text}, (∀ p ∈ body, p ≠ .char '\n' ∧ p ∈ t) →
        ∀ p ∈ body, p ≠ .char '\n' ∧ p ∈ q :: t :=
      fun hb p hp => ⟨(hb p hp).1, List.mem_cons_of_mem _ (hb p hp).2⟩
    rw [textLines] at h
    by_cases hq : q = .char '\n'
    · rw [if_pos hq] at h
      rcases List.mem_cons.mp h with rfl | h
      · exact ⟨[], Or.inl (by rw [hq]; rfl), fun p hp => absurd hp List.not_mem_nil⟩
      · obtain ⟨body, hl, hb⟩ := ih h
        exact ⟨body, hl, lift hb⟩
    · rw [if_neg hq] at h
      have hself : q ≠ .char '\n' ∧ q ∈ q :: t := ⟨hq, List.mem_cons_self⟩
      rcases mem_consHead h with rfl | ⟨v, hv, rfl⟩ | h
      · refine ⟨[q], Or.inr rfl, fun p hp => ?_⟩
        rw [List.mem_singleton.mp hp]
        exact hself
      · obtain ⟨body, hl, hb⟩ := ih hv
        refine ⟨q :: body, ?_, fun p hp => ?_⟩
        · rcases hl with rfl | rfl
          · exact Or.inl rfl
          · exact Or.inr rfl
        · rcases List.mem_cons.mp hp with rfl | hp
          · exact hself
          · exact lift hb p hp
      · obtain ⟨body, hl, hb⟩ := ih h
        exact ⟨body, hl, lift hb⟩

theorem mem_unifyLineEnds {t : Text} {p : Point} (h : p ∈ unifyLineEnds t) :
    p ≠ .char '\r' ∧ (p = .char '\n' ∨ p ∈ t) := by
  fun_induction unifyLineEnds t with
  | case1 => cases h
  | case2 t ih =>
    rcases List.mem_cons.mp h with rfl | h
    · exact ⟨by decide, Or.inl rfl⟩
    · obtain ⟨h1, h2⟩ := ih h
      exact ⟨h1, h2.imp id fun hm => List.mem_cons_of_mem _ (List.mem_cons_of_mem _ hm)⟩
  | case3 q t _ ih =>
    rcases List.mem_cons.mp h with rfl | h
    · by_cases hq : q = .char '\r'
      · rw [if_pos hq]
        exact ⟨by decide, Or.inl rfl⟩
      · rw [if_neg hq]
        exact ⟨hq, Or.inr List.mem_cons_self⟩
    · obtain ⟨h1, h2⟩ := ih h
      exact ⟨h1, h2.imp id (List.mem_cons_of_mem _)⟩

theorem mem_unifyLineEnds_of_mem {t : Text} {p : Point} (hn : p ≠ .char '\n')
    (hr : p ≠ .char '\r') (h : p ∈ t) : p ∈ unifyLineEnds t := by
  fun_induction unifyLineEnds t with
  | case1 => exact h
  | case2 t ih =>
    rcases List.mem_cons.mp h with rfl | h
    · exact absurd rfl hr
    · rcases List.mem_cons.mp h with rfl | h
      · exact absurd rfl hn
      · exact List.mem_cons_of_mem _ (ih h)
  | case3 q t _ ih =>
    rcases List.mem_cons.mp h with rfl | h
    · rw [if_neg hr]
      exact List.mem_cons_self
    · exact List.mem_cons_of_mem _ (ih h)

/-! ### Lines of a script -/

theorem splitLines_cons {p : Point} {t : Text} (h : p = .char '\r' → t.head? ≠ some (.char '\n')) :
    splitLines (p :: t) =
      if isLineBreak p then [] :: splitLines t else consHead p (splitLines t) := by
  rw [splitLines]
  rintro t' rfl rfl
  exact h rfl rfl

theorem consHead_append {p : Point} {ts : List Text} (h : ts ≠ []) (us : List Text) :
    consHead p (ts ++ us) = consHead p ts ++ us := by
  cases ts with
  | nil => exact absurd rfl h
  | cons t ts => rfl

theorem splitLines_ne_nil {t : Text} (h : t ≠ []) : splitLines t ≠ [] := by
  fun_cases splitLines t with
  | case1 => exact absurd rfl h
  | case2 => exact List.cons_ne_nil _ _
  | case3 => exact List.cons_ne_nil _ _
  | case4 => exact consHead_ne_nil _ _

/-- A line of a script holds no line boundary, and nothing but what the script holds. -/
theorem mem_splitLines {t line : Text} (h : line ∈ splitLines t) :
    ∀ p ∈ line, isLineBreak p = false ∧ p ∈ t := by
  fun_induction splitLines t generalizing line with
  | case1 => cases h
  | case2 t ih =>
    rcases List.mem_cons.mp h with rfl | h
    · exact fun p hp => absurd hp List.not_mem_nil
    · intro p hp
      exact (ih h p hp).imp_right fun hm => List.mem_cons_of_mem _ (List.mem_cons_of_mem _ hm)
  | case3 q t _ hq ih =>
    rcases List.mem_cons.mp h with rfl | h
    · exact fun p hp => absurd hp List.not_mem_nil
    · exact fun p hp => (ih h p hp).imp_right (List.mem_cons_of_mem _)
  | case4 q t _ hq ih =>
    have hself : isLineBreak q = false ∧ q ∈ q :: t :=
      ⟨Bool.eq_false_iff.mpr hq, List.mem_cons_self⟩
    have hlift : ∀ {v}, v ∈ splitLines t → ∀ p ∈ v, isLineBreak p = false ∧ p ∈ q :: t :=
      fun hv p hp => (ih hv p hp).imp_right (List.mem_cons_of_mem _)
    rcases mem_consHead h with rfl | ⟨v, hv, rfl⟩ | h
    · exact List.forall_mem_singleton.mpr hself
    · exact List.forall_mem_cons.mpr ⟨hself, hlift hv⟩
    · exact hlift h

/-- A text without a line boundary is one line. -/
theorem splitLines_eq_self {t : Text} (hne : t ≠ []) (h : ∀ p ∈ t, isLineBreak p = false) :
    splitLines t = [t] := by
  induction t with
  | nil => exact absurd rfl hne
  | cons q t ih =>
    obtain ⟨hq, ht⟩ := List.forall_mem_cons.mp h
    have hreturn : q ≠ .char '\r' := by
      rintro rfl
      exact absurd hq (by decide)
    rw [splitLines_cons fun e => absurd e hreturn, hq, if_neg Bool.false_ne_true]
    cases t with
    | nil => rfl
    | cons p t =>
      rw [ih (List.cons_ne_nil p t) ht]
      rfl

/-- A line feed between two scripts ends the last line of the first, or makes an empty one. -/
theorem splitLines_append_newline (t u : Text) :
    ∃ ls, (ls = [] ∨ ls = [[]]) ∧
      splitLines (t ++ .char '\n' :: u) = splitLines t ++ (ls ++ splitLines u) := by
  fun_induction splitLines t with
  | case1 => exact ⟨[[]], Or.inr rfl, rfl⟩
  | case2 t ih =>
    obtain ⟨ls, hls, ht⟩ := ih
    exact ⟨ls, hls, congrArg ([] :: ·) ht⟩
  | case3 q t hpair hq ih =>
    by_cases hlast : q = .char '\r' ∧ t = []
    · obtain ⟨rfl, rfl⟩ := hlast
      exact ⟨[], Or.inl rfl, rfl⟩
    · obtain ⟨ls, hls, ht⟩ := ih
      have hhead : q = .char '\r' → (t ++ .char '\n' :: u).head? ≠ some (.char '\n') := by
        intro hcr hn
        cases t with
        | nil => exact hlast ⟨hcr, rfl⟩
        | cons d t => exact hpair t hcr (congrArg (· :: t) (Option.some.inj hn))
      exact ⟨ls, hls, by rw [List.cons_append, splitLines_cons hhead, if_pos hq, ht]; rfl⟩
  | case4 q t _ hq ih =>
    have hne : q ≠ .char '\r' := fun h => hq (h ▸ by decide)
    rw [List.cons_append, splitLines_cons fun h => absurd h hne, if_neg hq]
    cases t with
    | nil => exact ⟨[], Or.inl rfl, rfl⟩
    | cons d t =>
      obtain ⟨ls, hls, ht⟩ := ih
      refine ⟨ls, hls, ?_⟩
      rw [ht, consHead_append (splitLines_ne_nil (List.cons_ne_nil d t))]

end TableAlgebra.Text

namespace TableAlgebra.Storage.Record

/-! ### Line ends -/

/-- Text that a record can hold: no line end is in it. -/
def IsBody (t : Text) : Prop := ∀ p ∈ t, p ≠ .char '\r' ∧ p ≠ .char '\n'

theorem stripLineEnd_of_isBody {t : Text} (h : IsBody t) : stripLineEnd t = t := by
  rw [stripLineEnd, Text.dropEndWhile]
  cases ht : t.reverse with
  | nil => rw [List.reverse_eq_nil_iff.mp ht]; rfl
  | cons p u =>
    obtain ⟨h1, h2⟩ := h p (List.mem_reverse.mp (ht ▸ List.mem_cons_self))
    rw [List.dropWhile_cons_of_neg (by simp [h1, h2]), ← ht, List.reverse_reverse]

theorem stripLineEnd_newline {t : Text} (h : IsBody t) :
    stripLineEnd (t ++ [.char '\n']) = t := by
  have e := stripLineEnd_of_isBody h
  rw [stripLineEnd, Text.dropEndWhile] at e ⊢
  rw [List.reverse_append]
  exact e

/-- What a line of a file holds before its line end. -/
theorem exists_line {t line : Text} (h : line ∈ t.unifyLineEnds.textLines) :
    IsBody (stripLineEnd line) ∧ ∀ p ∈ stripLineEnd line, p ∈ t := by
  obtain ⟨body, hl, hb⟩ := Text.mem_textLines h
  have hbody : IsBody body := fun p hp => ⟨(Text.mem_unifyLineEnds (hb p hp).2).1, (hb p hp).1⟩
  have e : stripLineEnd line = body := by
    rcases hl with rfl | rfl
    · exact stripLineEnd_newline hbody
    · exact stripLineEnd_of_isBody hbody
  rw [e]
  exact ⟨hbody, fun p hp => (Text.mem_unifyLineEnds (hb p hp).2).2.resolve_left (hb p hp).1⟩

end TableAlgebra.Storage.Record
