import Mathlib.Data.List.DropRight
import TableAlgebra.Proofs.Algebra.Selected
import TableAlgebra.Proofs.Command.Written
import TableAlgebra.Proofs.Session.Effect

/-!
# Selecting by a text in quotes

A text in quotes comes through the lexer and the parser as it is, blanks and all. The selection
strips it, and the cells of a table are not stripped. So the rows that are taken are those of the
stripped text, and a cell with a blank at one of its ends is not found by its own text.

* `strip_eq_self_iff`       a text is left alone if there is no blank at its ends;
* `selection target name column literal`   the command;
* `lexesTo_selection`       its lexemes, for a literal in quotes of either kind;
* `statement_selection`     its statement has the text between the quotes;
* `Selects`                 what the answer to it should be;
* `execute_selection`       what the answer is, and when it is what it should be.
-/

namespace TableAlgebra

/-! ### Blanks at the ends -/

namespace Text

/-- No blank is at either end of the text. -/
def IsTrimmed (v : Text) : Prop :=
  (∀ p ∈ v.head?, isBlank p = false) ∧ ∀ p ∈ v.getLast?, isBlank p = false

theorem dropWhile_eq_self {p : Point → Bool} {v : Text} :
    v.dropWhile p = v ↔ ∀ c ∈ v.head?, p c = false := by
  cases v with
  | nil => exact iff_of_true rfl fun _ hc => nomatch hc
  | cons d v =>
    rw [List.dropWhile_eq_self_iff]
    simp

theorem dropEndWhile_eq_self {p : Point → Bool} {v : Text} :
    dropEndWhile p v = v ↔ ∀ c ∈ v.getLast?, p c = false := by
  rw [dropEndWhile, List.reverse_eq_iff, dropWhile_eq_self, List.head?_reverse]

theorem strip_eq_self_iff {v : Text} : v.strip = v ↔ v.IsTrimmed := by
  rw [IsTrimmed, ← dropWhile_eq_self, ← dropEndWhile_eq_self, strip]
  constructor
  · intro h
    have hfront : v.dropWhile isBlank = v := by
      refine (List.dropWhile_suffix _).eq_of_length_le ?_
      calc v.length = (dropEndWhile isBlank (v.dropWhile isBlank)).length := by rw [h]
        _ ≤ (v.dropWhile isBlank).length := (List.rdropWhile_prefix _ _).length_le
    rw [hfront] at h
    exact ⟨hfront, h⟩
  · rintro ⟨hfront, hend⟩
    rw [hfront, hend]

end Text

/-! ### The command -/

namespace Command

/-- The command that stores the rows of a table whose cell in a column is equal to a literal. -/
def selection (target name column literal : Text) : Text :=
  target ++ (" = rows(" ++ (name ++ (", " ++ (column ++ (", ==, " ++ (literal ++ ")"))))))

def inQuotes (q : Text.Point) (v : Text) : Text := q :: (escape q v ++ [q])

theorem lexesTo_selection {target name column literal : Text} {l : Lexeme} {v : Text}
    (htarget : IsBareWord target) (hname : IsBareWord name) (hcolumn : Spells column l)
    (hliteral : Spells literal (.quoted v)) :
    LexesTo (selection target name column literal)
      (.word target :: .symbol .assign :: .word "rows" ::
        parenthesized [.word name, l, .symbol .equals, .quoted v]) := by
  have hstop (l : Lexeme) {c : Text.Point} {rest : Text}
      (hc : (!isWordPart c && decide (c ≠ '=')) = true) : l.Stops (c :: rest) := by
    rw [Bool.and_eq_true, Bool.not_eq_true', decide_eq_true_iff] at hc
    exact l.stops_cons hc.1 hc.2 rest
  have hblank : Text.isBlank (.char ' ') = true := by decide
  have hword {w : Text} (h : IsBareWord w) : Spells w (.word w) :=
    .word h.1 (ofWord_of_isBareWord h)
  have hrows : IsBareWord "rows" := isReadable_word.mp (isReadable_name .rows)
  have close : LexesTo (")" : Text) [.symbol .rparen] :=
    LexesTo.spelled (.nil rfl) (.symbol .rparen) (Lexeme.stops_nil _)
  have value := (close.spelled hliteral trivial).blank hblank
  have comma₃ := value.spelled (.symbol .comma) (hstop _ (by decide +kernel))
  have equals := (comma₃.spelled (.symbol .equals) (hstop _ (by decide +kernel))).blank hblank
  have comma₂ := equals.spelled (.symbol .comma) (hstop _ (by decide +kernel))
  have position := (comma₂.spelled hcolumn (hstop _ (by decide +kernel))).blank hblank
  have comma₁ := position.spelled (.symbol .comma) (hstop _ (by decide +kernel))
  have table := comma₁.spelled (hword hname) (hstop _ (by decide +kernel))
  have opened := table.spelled (.symbol .lparen) fun _ => by decide
  have call := (opened.spelled (hword hrows) (hstop _ (by decide +kernel))).blank hblank
  have assign := (call.spelled (.symbol .assign) fun he => nomatch he).blank hblank
  exact assign.spelled (hword htarget) (hstop _ (by decide +kernel))

theorem statement_selection {target name column : Text} {l : Lexeme} {ref : ColumnRef}
    (htarget : IsBareWord target) (hname : IsBareWord name) (hcolumn : Spells column l)
    (href : IsColumn l ref) {q : Text.Point} (quote : q = '\x22' ∨ q = '\x27') {v : Text}
    (last : v.getLast? ≠ some (.char '\\')) :
    statement (selection target name column (inQuotes q v)) =
      .ok (.assign target (.rows name ref "==" v)) := by
  have hlexes := lexesTo_selection htarget hname hcolumn (.quoted quote last)
  obtain ⟨ts, hts, hls⟩ := lexesTo_iff.mp hlexes
  have hcall : Call .rows false [.word name, l, .symbol .equals, .quoted v]
      (.rows name ref "==" v) := .rows name href (by decide) (.quoted v)
  have hderives := Derives.assign target (.inner "rows" (Operator.lower_name .rows) hcall)
  exact bind_eq_ok.mpr ⟨ts, hts, Tokens.statement_eq_ok.mpr ⟨_, hderives, Or.inl hls⟩⟩

end Command

/-! ### The answer -/

namespace Session

open Command (IsBareWord IsColumn Lexeme Spells selection inQuotes)

theorem table_assign (s : Session) (target : Text) (u : Table) :
    (s.assign target u).1.table = some u := by
  unfold assign
  split <;> rfl

/-- A command can speak of the column of texts by these two words, for the table and in it. -/
structure NamesTexts (s : Session) (name column : Text) (t : Table) (c : Nat) : Prop where
  table : s.table name = .ok t
  rows : t.RowsConform
  bare : IsBareWord name
  spelled : ∃ l ref, Spells column l ∧ IsColumn l ref ∧ t.resolve ref = .ok c
  width : c < t.width
  kind : t.kind c = .text

/-- The answer to the command is the rows of the table whose cell in the column is the text, in
their order. -/
def Selects (s : Session) (command : Text) (t : Table) (c : Nat) (v : Text) : Prop :=
  ∃ reply u, (s.execute command).1 = .ok reply ∧ reply.table = some u ∧ u.schema = t.schema ∧
    u.rows = t.rows.filter fun r => r.cell c = .text (some v)

theorem test_eq (legacy : Bool) (a value : Cell) :
    Comparator.eq.test legacy a value = decide (a = value) := by
  cases legacy <;> rfl

theorem rows_of_text {s : Session} {name : Text} {t : Table} {ref : ColumnRef} {c : Nat}
    (htable : s.table name = .ok t) (hrows : t.RowsConform) (hc : t.resolve ref = .ok c)
    (hwidth : c < t.width) (hkind : t.kind c = .text) (v : Text) :
    s.rows name ref "==" v =
      .ok (Algebra.selectRows t c (Comparator.eq.test s.legacy) (.text (some v.strip))) := by
  have hvalue : Algebra.readLiteral (t.kind c) v = .ok (.text (some v.strip)) := by
    rw [hkind]
    rfl
  rw [rows, htable]
  show (t.resolve ref >>= fun c => _) = _
  rw [hc]
  exact Algebra.select_of_column hrows (Comparator.read_symbol .eq) hwidth hvalue s.legacy

theorem Selects.rows_eq {s : Session} {command : Text} {t : Table} {c : Nat} {v : Text}
    (h : Selects s command t c v) {reply : Reply} {u : Table}
    (hreply : (s.execute command).1 = .ok reply) (hu : reply.table = some u) :
    u.rows = t.rows.filter fun r => r.cell c = .text (some v) := by
  obtain ⟨_, _, hanswer, htable, -, hrows⟩ := h
  cases hreply.symm.trans hanswer
  cases hu.symm.trans htable
  exact hrows

/-- An answer that is right for one text is right for another just if they are the same, or no row
has either of them. -/
theorem Selects.iff {s : Session} {command : Text} {t : Table} {c : Nat} {v w : Text}
    (h : Selects s command t c w) : Selects s command t c v ↔
      w = v ∨ ∀ r ∈ t.rows, r.cell c ≠ .text (some v) ∧ r.cell c ≠ .text (some w) := by
  obtain ⟨reply, u, hreply, hu, hschema, hrows⟩ := h
  constructor
  · intro hv
    have hfilter := hrows.symm.trans (hv.rows_eq hreply hu)
    by_cases hw : w = v
    · exact Or.inl hw
    · refine Or.inr fun r hr => ?_
      have hmem := congrArg (r ∈ ·) hfilter
      simp only [List.mem_filter, hr, true_and, decide_eq_true_eq, eq_iff_iff] at hmem
      have hboth : ¬(r.cell c = .text (some w) ∧ r.cell c = .text (some v)) := by
        rintro ⟨hcw, hcv⟩
        exact hw (Option.some.inj (Cell.text.inj (hcw.symm.trans hcv)))
      exact ⟨fun hcv => hboth ⟨hmem.mpr hcv, hcv⟩, fun hcw => hboth ⟨hcw, hmem.mp hcw⟩⟩
  · rintro (rfl | hnone)
    · exact ⟨reply, u, hreply, hu, hschema, hrows⟩
    · refine ⟨reply, u, hreply, hu, hschema, hrows.trans (List.filter_congr fun r hr => ?_)⟩
      rw [decide_eq_false (hnone r hr).1, decide_eq_false (hnone r hr).2]

section
variable {s : Session} {t : Table} {target name column : Text} {c : Nat}
  (h : NamesTexts s name column t c) (htarget : IsBareWord target) {q : Text.Point}
  (quote : q = '\x22' ∨ q = '\x27') {v : Text} (last : v.getLast? ≠ some (.char '\\'))
include h htarget quote last

/-- The text in quotes is read, and then stripped. -/
theorem selects_strip :
    Selects s (selection target name column (inQuotes q v)) t c v.strip := by
  obtain ⟨l, ref, hcolumn, href, hc⟩ := h.spelled
  have hstatement := Command.statement_selection htarget h.bare hcolumn href quote last
  refine ⟨_, Algebra.selectRows t c (Comparator.eq.test s.legacy) (.text (some v.strip)), ?_,
    table_assign s target _, rfl, ?_⟩
  · rw [execute_of_ok hstatement]
    show (s.settle ((s.rows name ref "==" v).map _)).1 = _
    rw [rows_of_text h.table h.rows hc h.width h.kind v]
    rfl
  · rw [Algebra.rows_selectRows h.rows]
    simp only [test_eq]

/-- The rows whose cell is the stripped text are the answer. They are those whose cell is the text
just if there is no blank at its ends, or no cell is either of the two, and a row whose cell is the
text is among them in the first case only. -/
theorem execute_selection :
    Selects s (selection target name column (inQuotes q v)) t c v.strip ∧
    (Selects s (selection target name column (inQuotes q v)) t c v ↔
      v.IsTrimmed ∨ ∀ r ∈ t.rows, r.cell c ≠ .text (some v) ∧ r.cell c ≠ .text (some v.strip)) ∧
    ∀ reply u, (s.execute (selection target name column (inQuotes q v))).1 = .ok reply →
      reply.table = some u → ∀ r ∈ t.rows, r.cell c = .text (some v) →
        (r ∈ u.rows ↔ v.IsTrimmed) := by
  have hselects := selects_strip h htarget quote last
  rw [← Text.strip_eq_self_iff]
  refine ⟨hselects, hselects.iff, fun reply u hreply hu r hr hcell => ?_⟩
  rw [hselects.rows_eq hreply hu, List.mem_filter, decide_eq_true_iff, hcell, Cell.text.injEq,
    Option.some.injEq]
  exact ⟨fun h => h.2.symm, fun h => ⟨hr, h.symm⟩⟩

end

namespace Sample

def padded : Table := { schema := [.text], rows := [[.text (some " a")], [.text (some "a")]] }

theorem namesTexts_padded : NamesTexts (store {} "t" padded) "t" "0" padded 0 where
  table := table_store_self ..
  rows := by decide
  bare := ⟨by decide +kernel, by decide +kernel, by decide +kernel⟩
  spelled := ⟨.integer ⟨0, rfl⟩ "0", .index 0, .word (by decide +kernel) rfl, .integer ⟨0, rfl⟩ "0", rfl⟩
  width := by decide
  kind := rfl

theorem isBareWord_target : IsBareWord "r" :=
  ⟨by decide +kernel, by decide +kernel, by decide +kernel⟩

end Sample

theorem execute_selection_sample :
    Selects (store {} "t" Sample.padded) "r = rows(t, 0, ==, ' a')" Sample.padded 0 "a" ∧
    Selects (store {} "t" Sample.padded) "r = rows(t, 0, ==, \"a\")" Sample.padded 0 "a" :=
  ⟨(execute_selection Sample.namesTexts_padded Sample.isBareWord_target (Or.inr rfl)
      (v := " a") (by decide)).1,
    (execute_selection Sample.namesTexts_padded Sample.isBareWord_target (Or.inl rfl)
      (v := "a") (by decide)).1⟩

/-- The row whose text begins with a blank is not found by this text. -/
theorem not_selects :
    ¬∀ (s : Session) (t : Table) (target name column : Text) (c : Nat) (q : Text.Point) (v : Text),
      NamesTexts s name column t c → IsBareWord target → q = '\x22' ∨ q = '\x27' →
      v.getLast? ≠ some (.char '\\') →
      Selects s (selection target name column (inQuotes q v)) t c v := by
  intro h
  have hblank := h _ _ "r" _ _ _ '\x27' " a" Sample.namesTexts_padded Sample.isBareWord_target
    (Or.inr rfl) (by decide)
  have hstrip := selects_strip Sample.namesTexts_padded Sample.isBareWord_target (Or.inr rfl)
    (v := " a") (by decide)
  rcases hstrip.iff.mp hblank with hsame | hnone
  · exact absurd hsame (by decide)
  · exact (hnone _ List.mem_cons_self).1 rfl

end Session

end TableAlgebra
