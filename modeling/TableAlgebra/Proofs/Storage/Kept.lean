import Mathlib.Data.List.DropRight
import TableAlgebra.Proofs.Storage.Written
import TableAlgebra.Proofs.Text.Filled

/-!
# What a table keeps of the lines it is read from

A table is read from lines by their fields, so line ends at the end of a line leave no trace. What
ends a line of a script but no line of a file does leave one: it is no part of an integer and
separates no fields, so it stays in a name of the header or in a text.

* `readTable_congr`           the line ends at the ends of the lines do not matter;
* `map_stripLineEnd_splitLines`   without them the lines of a script and of a file are the same, if
                              the text has line feeds and carriage returns only;
* `mem_written_of_readTable`  any other line boundary is in the table just if it is in a line.
-/

namespace TableAlgebra

namespace Text

/-- A line boundary of a script that is none of a file. -/
def IsSoftBreak (p : Point) : Prop := isLineBreak p = true ∧ p ≠ .char '\n' ∧ p ≠ .char '\r'

instance : DecidablePred IsSoftBreak := fun _ => inferInstanceAs (Decidable (_ ∧ _ ∧ _))

theorem mem_lineBreaks {p : Point} (h : isLineBreak p = true) : p ∈ lineBreaks :=
  List.contains_iff_mem.mp h

/-- No line boundary is part of an integer, or separates fields. -/
theorem IsSoftBreak.ne {p : Point} (h : IsSoftBreak p) :
    isDigit p = false ∧ p ≠ .char '-' ∧ p ≠ .char '+' ∧ p ≠ .char ',' := by
  have hall : ∀ p ∈ lineBreaks,
      isDigit p = false ∧ p ≠ .char '-' ∧ p ≠ .char '+' ∧ p ≠ .char ',' := by decide +kernel
  exact hall p (mem_lineBreaks h.1)

theorem IsSoftBreak.not_mem_comma {p : Point} (h : IsSoftBreak p) : p ∉ (("," : String) : Text) :=
  fun hp => h.ne.2.2.2 (List.mem_singleton.mp hp)

end Text

open Text (IsSoftBreak)

namespace Storage.Record

/-! ### Line ends -/

theorem stripLineEnd_stripLineEnd (line : Text) :
    stripLineEnd (stripLineEnd line) = stripLineEnd line := List.rdropWhile_idempotent _ _

theorem split_stripLineEnd (line : Text) : split (stripLineEnd line) = split line := by
  rw [split, stripLineEnd_stripLineEnd]
  rfl

theorem readLine_stripLineEnd (schema : Schema) (line : Text) :
    readLine schema (stripLineEnd line) = readLine schema line := by
  rw [readLine, split_stripLineEnd]
  rfl

theorem stripLineEnd_cons {p : Text.Point} (hn : p ≠ .char '\n') (hr : p ≠ .char '\r')
    (line : Text) : stripLineEnd (p :: line) = p :: stripLineEnd line :=
  Text.dropEndWhile_cons (Bool.or_eq_false_iff.mpr ⟨decide_eq_false hr, decide_eq_false hn⟩) line

theorem mem_stripLineEnd {p : Text.Point} (h : IsSoftBreak p) {line : Text} :
    p ∈ stripLineEnd line ↔ p ∈ line := by
  have hparts : stripLineEnd line ++
      line.rtakeWhile (fun c => c = .char '\r' || c = .char '\n') = line :=
    List.rdropWhile_append_rtakeWhile
  constructor
  · intro hp
    rw [← hparts]
    exact List.mem_append_left _ hp
  · intro hp
    rw [← hparts] at hp
    refine (List.mem_append.mp hp).resolve_right fun hend => ?_
    have hline := List.mem_rtakeWhile_imp hend
    rw [Bool.or_eq_true, decide_eq_true_iff, decide_eq_true_iff] at hline
    exact hline.elim h.2.2 h.2.1

theorem map_stripLineEnd_consHead {p : Text.Point} (hn : p ≠ .char '\n') (hr : p ≠ .char '\r')
    (ts : List Text) :
    (Text.consHead p ts).map stripLineEnd = Text.consHead p (ts.map stripLineEnd) := by
  cases ts with
  | nil => exact congrArg (fun l => [l]) (stripLineEnd_cons hn hr [])
  | cons t ts => exact congrArg (· :: ts.map stripLineEnd) (stripLineEnd_cons hn hr t)

/-- Without soft breaks a script has the lines of a file. -/
theorem map_stripLineEnd_splitLines {t : Text} (h : ∀ p ∈ t, ¬IsSoftBreak p) :
    t.splitLines.map stripLineEnd = (Feed.linesOf t).map stripLineEnd := by
  unfold Feed.linesOf
  fun_induction Text.splitLines t with
  | case1 => rfl
  | case2 t ih =>
    have ht : ∀ p ∈ t, ¬IsSoftBreak p := fun p hp => h p (by simp [hp])
    rw [Text.unifyLineEnds, Text.textLines, if_pos rfl, List.map_cons, List.map_cons, ih ht]
    rfl
  | case3 q t hpair hq ih =>
    obtain ⟨hsoft, ht⟩ := List.forall_mem_cons.mp h
    have hfeed : (if q = .char '\r' then .char '\n' else q) = .char '\n' := by
      split
      · rfl
      · next hr => exact not_not.mp fun hn => hsoft ⟨hq, hn, hr⟩
    rw [Text.unifyLineEnds, hfeed, Text.textLines, if_pos rfl, List.map_cons, List.map_cons, ih ht]
    · rfl
    · exact hpair
  | case4 q t hpair hq ih =>
    obtain ⟨-, ht⟩ := List.forall_mem_cons.mp h
    have hn : q ≠ .char '\n' := fun e => hq (e ▸ by decide)
    have hr : q ≠ .char '\r' := fun e => hq (e ▸ by decide)
    rw [Text.unifyLineEnds, if_neg hr, Text.textLines, if_neg hn, map_stripLineEnd_consHead hn hr,
      map_stripLineEnd_consHead hn hr, ih ht]
    exact hpair

/-! ### Kept characters -/

theorem mem_split {p : Text.Point} (h : IsSoftBreak p) {line : Text} :
    (∃ f ∈ split line, p ∈ f) ↔ p ∈ line := by
  have hjoined : Text.joined "," (split line) = stripLineEnd line := by
    rw [split, Text.splitOn_eq]
    exact List.intercalate_splitOn _
  rw [← Text.mem_joined_iff h.not_mem_comma, hjoined, mem_stripLineEnd h]

end Storage.Record

namespace Storage.Feed

theorem splitHeader_map_stripLineEnd (table : Text) (schema : Schema) (headed : Bool)
    (lines : List Text) :
    splitHeader table schema headed (lines.map Record.stripLineEnd) =
      (splitHeader table schema headed lines).map fun x => (x.1, x.2.map Record.stripLineEnd) := by
  cases headed with
  | false => rfl
  | true =>
    cases lines with
    | nil => rfl
    | cons line lines =>
      rw [List.map_cons, splitHeader, splitHeader, Record.split_stripLineEnd]
      split <;> rfl

theorem readTable_map_stripLineEnd (lines : List Text) (fault : Option LoadFault) (table : Text)
    (schema : Schema) (headed : Bool) :
    readTable ⟨lines.map Record.stripLineEnd, fault⟩ table schema headed =
      readTable ⟨lines, fault⟩ table schema headed := by
  have hrows : ∀ lines : List Text, (lines.map Record.stripLineEnd).mapM (Record.readLine schema) =
      lines.mapM (Record.readLine schema) := by
    intro lines
    rw [List.mapM_map]
    exact congrArg (lines.mapM ·) (funext (Record.readLine_stripLineEnd schema))
  unfold readTable
  dsimp only
  rw [splitHeader_map_stripLineEnd]
  cases splitHeader table schema headed lines with
  | error e => rfl
  | ok x =>
    show ((x.2.map Record.stripLineEnd).mapM (Record.readLine schema) >>= _) = _
    rw [hrows]
    rfl

/-- The line ends at the ends of the lines do not matter. -/
theorem readTable_congr {lines lines' : List Text}
    (h : lines.map Record.stripLineEnd = lines'.map Record.stripLineEnd)
    (fault : Option LoadFault) (table : Text) (schema : Schema) (headed : Bool) :
    readTable ⟨lines, fault⟩ table schema headed =
      readTable ⟨lines', fault⟩ table schema headed := by
  rw [← readTable_map_stripLineEnd lines, h, readTable_map_stripLineEnd]

end Storage.Feed

namespace Text

theorem mem_ofField? {t : Text} {n : Numeral} (h : Numeral.ofField? t = some n) {p : Point}
    (hp : p ∈ t) : isDigit p = true ∨ p = .char '-' ∨ p = .char '+' ∨ p = .char '\n' := by
  obtain ⟨-, hdigits, sign, last, hsign, -, hlast, rfl⟩ := Numeral.ofField?_eq_some.mp h
  rcases List.mem_append.mp hp with hp | hp
  · rcases List.mem_append.mp hp with hp | hp
    · rcases hsign with rfl | rfl | rfl
      · cases hp
      · exact Or.inr (Or.inr (Or.inl (List.mem_singleton.mp hp)))
      · exact Or.inr (Or.inl (List.mem_singleton.mp hp))
    · exact Or.inl (hdigits p hp)
  · rcases hlast with rfl | rfl
    · cases hp
    · exact Or.inr (Or.inr (Or.inr (List.mem_singleton.mp hp)))

end Text

section
variable {p : Text.Point} (soft : IsSoftBreak p)
include soft

theorem Cell.mem_written_of_read {k : Kind} {f : Text} {c : Cell} (h : read k f = .ok c) :
    p ∈ c.written ↔ p ∈ f := by
  cases k with
  | text =>
    cases h
    exact Iff.rfl
  | numeric =>
    obtain ⟨hdigit, hminus, hplus, -⟩ := soft.ne
    have hnot : ¬Text.isDigit p = true := Bool.eq_false_iff.mp hdigit
    obtain ⟨n, hn, hc⟩ := map_eq_ok.mp h
    refine iff_of_false (fun hp => ?_) (fun hp => ?_)
    · rw [← hc] at hp
      exact (Text.mem_ofInt hp).elim hnot hminus
    · unfold readInt at hn
      split at hn
      · cases hn
      · next num hnum =>
        rcases Text.mem_ofField? hnum hp with hp | hp | hp | hp
        · exact hnot hp
        · exact hminus hp
        · exact hplus hp
        · exact soft.2.1 hp

theorem Table.mem_written_iff {t : Table} :
    p ∈ t.written ↔ (∃ name ∈ t.header, p ∈ name) ∨ ∃ r ∈ t.rows, p ∈ r.written := by
  have hfeed : p ∉ (("\n" : String) : Text) := fun hp => soft.2.1 (List.mem_singleton.mp hp)
  have hrecords : p ∈ t.written ↔ ∃ record ∈ t.records, p ∈ record := by
    simp only [written, asLines, List.mem_flatMap, List.mem_append, or_iff_left hfeed]
  have hheader : (∃ record ∈ if t.hasHeader then [Text.joined "," t.header] else [], p ∈ record) ↔
      ∃ name ∈ t.header, p ∈ name := by
    rw [hasHeader]
    cases t.header with
    | nil => simp
    | cons name names => simp [Text.mem_joined_iff soft.not_mem_comma]
  rw [hrecords, ← hheader]
  simp only [records, recordsOf, List.mem_append, or_and_right, exists_or, List.mem_map,
    exists_exists_and_eq_and]

namespace Storage

theorem Record.exists_mem_readCells {schema : Schema} {fields : List Text} {row : Row}
    (hl : fields.length = schema.length) (h : readCells schema (fields.map some) = .ok row) :
    (∃ s ∈ row.fields, p ∈ s) ↔ ∃ f ∈ fields, p ∈ f := by
  induction schema generalizing fields row with
  | nil =>
    rw [List.length_eq_zero_iff.mp hl] at h ⊢
    cases h
    exact Iff.rfl
  | cons k ks ih =>
    cases fields with
    | nil => cases hl
    | cons f fs =>
      obtain ⟨c, cs, hc, hcs, rfl⟩ := readCells_cons_eq_ok.mp h
      have hcell := Cell.mem_written_of_read soft (readCell_some_eq_ok.mp hc)
      have hcells := ih (Nat.succ.inj hl) hcs
      simp only [Row.fields, List.map_cons, List.mem_cons, exists_eq_or_imp, hcell] at hcells ⊢
      rw [hcells]

theorem Record.mem_written_of_readLine {schema : Schema} {line : Text} {row : Row}
    (h : readLine schema line = .ok row) : p ∈ row.written ↔ p ∈ line := by
  rw [readLine, readRow] at h
  split at h
  · next hl =>
    rw [List.length_map] at hl
    rw [Row.written, Text.mem_joined_iff soft.not_mem_comma, exists_mem_readCells soft hl h,
      mem_split soft]
  · cases h

/-- A line boundary of another kind is in a table just if it is in a line that was read. -/
theorem Feed.mem_written_of_readTable {feed : Feed} {table : Text} {schema : Schema}
    {headed : Bool} {u : Table} (h : feed.readTable table schema headed = .ok u) :
    p ∈ u.written ↔ ∃ line ∈ feed.lines, p ∈ line := by
  obtain ⟨-, header, lines, rows, hsplit, hrows, rfl⟩ := readTable_eq_ok.mp h
  have hbody := exists_mem_mapM (Record.mem_written_of_readLine soft) hrows
  rw [Table.mem_written_iff soft, hbody]
  rcases splitHeader_eq_ok.mp hsplit with ⟨line, -, hl, rfl, -⟩ | ⟨-, rfl, rfl⟩
  · rw [hl, Record.mem_split soft]
    simp only [List.mem_cons, exists_eq_or_imp]
  · exact or_iff_right fun ⟨_, hname, _⟩ => nomatch hname

end Storage

end

end TableAlgebra
