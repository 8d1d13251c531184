import Mathlib.Data.List.DropRight
import TableAlgebra.Proofs.Session.Names
import TableAlgebra.Proofs.Shell.Batch

/-!
# Printing a table

An answer is printed without the line feeds at its end, and with one instead. The written form of a
table ends in as many as there are empty records at its end, so all of these are lost that come
after the first record. A record is empty if it has one field and that is empty.

* `Table.trimmed`, `Table.lost`   the records that are printed, and those that are not;
* `shown_eq_written`         when nothing is lost;
* `printMessage_asLines`     what is printed of records, one a line;
* `statement_print`, `isForSession_print`   the command that prints a table;
* `print_spec`               what a shell and a batch print of a table, and when it is all of it.
-/

namespace TableAlgebra

/-! ### Records that are printed -/

namespace Table

/-- The first record, and the others up to the last that is not empty. -/
def trimmed (records : List Text) : List Text :=
  records.take 1 ++ (records.drop 1).rdropWhile List.isEmpty

/-- The empty records at the end, but for the first record. -/
def lost (records : List Text) : List Text := (records.drop 1).rtakeWhile List.isEmpty

/-- What is printed of the table. -/
def shown (t : Table) : Text := asLines (trimmed t.records)

theorem asLines_append (records more : List Text) :
    asLines (records ++ more) = asLines records ++ asLines more := List.flatMap_append

theorem asLines_eq_nil {records : List Text} : asLines records = [] ↔ records = [] := by
  cases records with
  | nil => exact iff_of_true rfl rfl
  | cons record records =>
    refine iff_of_false (fun h => ?_) (List.cons_ne_nil _ _)
    cases List.append_eq_nil_iff.mp (List.append_eq_nil_iff.mp h).1 |>.2

theorem trimmed_append_lost (records : List Text) : trimmed records ++ lost records = records := by
  rw [trimmed, lost, List.append_assoc, List.rdropWhile_append_rtakeWhile, List.take_append_drop]

theorem lost_eq_nil {records : List Text} :
    lost records = [] ↔ records.length ≤ 1 ∨ records.getLast? ≠ some [] := by
  rw [lost, List.rtakeWhile_eq_nil_iff]
  cases records with
  | nil => exact iff_of_true (fun h => absurd rfl h) (Or.inl (Nat.zero_le _))
  | cons record records =>
    show (∀ h : records ≠ [], ¬(records.getLast h).isEmpty = true) ↔ _
    cases records with
    | nil => exact iff_of_true (fun h => absurd rfl h) (Or.inl (Nat.le_refl _))
    | cons next records =>
      have hne := List.cons_ne_nil next records
      have hlong : ¬(record :: next :: records).length ≤ 1 := by simp
      rw [or_iff_right hlong, List.getLast?_cons_cons, forall_prop_of_true hne,
        List.getLast?_eq_some_getLast hne, ne_eq, Option.some_inj, List.isEmpty_iff]

/-- All of the table is printed, unless its last record is empty and not the only one. -/
theorem shown_eq_written {t : Table} :
    t.shown = t.written ↔ t.records.length ≤ 1 ∨ t.records.getLast? ≠ some [] := by
  have hwritten : t.written = t.shown ++ asLines (lost t.records) := by
    rw [shown, ← asLines_append, trimmed_append_lost]
    rfl
  rw [hwritten, List.self_eq_append_right, asLines_eq_nil, lost_eq_nil]

end Table

namespace Shell

open Session (isCommand)
open Table (asLines trimmed)

/-! ### Printing records -/

theorem asLines_concat (records : List Text) (last : Text) :
    asLines (records ++ [last]) = asLines records ++ last ++ "\n" := by
  rw [Table.asLines_append, List.append_assoc]
  exact congrArg (asLines records ++ ·) (List.flatMap_singleton _ _)

theorem rdropWhile_line {record : Text} (h : .char '\n' ∉ record) (front : Text) :
    (front ++ record ++ "\n").rdropWhile (· = .char '\n') =
      if record.isEmpty then front.rdropWhile (· = .char '\n') else front ++ record := by
  have hfeed : ("\n" : Text) = [.char '\n'] := rfl
  rw [hfeed, List.rdropWhile_concat, if_pos (decide_eq_true rfl)]
  split
  · next hempty => rw [List.isEmpty_iff.mp hempty, List.append_nil]
  · next hne =>
    refine List.rdropWhile_eq_self_iff.mpr fun hne' => ?_
    have hrecord : record ≠ [] := fun e => hne (List.isEmpty_iff.mpr e)
    rw [List.getLast_append_of_ne_nil hne' hrecord, decide_eq_true_iff]
    exact fun hlast => h (hlast ▸ List.getLast_mem hrecord)

/-- The line feeds at the end are those of the empty records there and the one before them. -/
theorem printMessage_asLines {records : List Text} (h : ∀ record ∈ records, .char '\n' ∉ record) :
    printMessage (asLines records) = asLines (trimmed records) := by
  cases records with
  | nil => rfl
  | cons first records =>
    obtain ⟨hfirst, hrecords⟩ := List.forall_mem_cons.mp h
    have hprint : printMessage (asLines (first :: records)) =
        (asLines (first :: records)).rdropWhile (· = .char '\n') ++ "\n" := by
      rw [printMessage, if_neg]
      · rfl
      · rw [List.isEmpty_iff, Table.asLines_eq_nil]
        exact List.cons_ne_nil _ _
    rw [hprint]
    show _ = asLines (first :: records.rdropWhile List.isEmpty)
    clear h hprint
    induction records using List.reverseRecOn with
    | nil =>
      rw [← List.nil_append [first], asLines_concat, rdropWhile_line hfirst]
      split
      · next hempty =>
        rw [List.isEmpty_iff.mp hempty]
        rfl
      · exact (asLines_concat [] first).symm
    | append_singleton records last ih =>
      obtain ⟨hinit, hlast⟩ := List.forall_mem_append.mp hrecords
      rw [← List.cons_append, asLines_concat, rdropWhile_line (hlast last List.mem_cons_self),
        List.rdropWhile_concat]
      split
      · exact ih hinit
      · rw [← List.cons_append, asLines_concat]

/-! ### The command that prints a table -/

def printLine (name : Text) : Text := "print " ++ name

theorem isForSession_of_head? {line : Text} {c : Text.Point} (h : line.head? = some c)
    (blank : Text.isBlank c = false) (dash : c ≠ .char '-') (dot : c ≠ .char '.') :
    IsForSession line := by
  have hstrip : line.strip.head? = some c := by
    obtain ⟨cs, rfl⟩ := List.head?_eq_some_iff.mp h
    rw [Text.strip, List.dropWhile_cons_of_neg (Bool.eq_false_iff.mp blank)]
    exact (Text.head?_dropEndWhile blank).mpr h
  obtain ⟨cs, hcs⟩ := List.head?_eq_some_iff.mp hstrip
  refine ⟨?_, fun hdot => dot (Option.some.inj (hstrip.symm.trans hdot))⟩
  have hcomment : ("--" : Text).isPrefixOf (c :: cs) = false :=
    Bool.eq_false_iff.mpr fun hp =>
      dash (List.cons_prefix_cons.mp (List.isPrefixOf_iff_prefix.mp hp)).1.symm
  rw [isCommand, hcs, hcomment]
  rfl

theorem isForSession_printLine (name : Text) : IsForSession (printLine name) :=
  isForSession_of_head? rfl (by decide) (by decide) (by decide)

section
variable {name : Text} (h : Command.IsBareWord name)
include h

theorem statement_printLine : Command.statement (printLine name) = .ok (.print name) := by
  have hwritable : (Command.Statement.print name).IsWritable := h
  exact Command.Statement.statement_written hwritable

theorem unbroken_printLine : ∀ p ∈ printLine name, Text.isLineBreak p = false := by
  have hfront : ∀ p ∈ ("print " : Text), Text.isLineBreak p = false := by decide +kernel
  refine List.forall_mem_append.mpr ⟨hfront, fun p hp => ?_⟩
  exact Command.not_isLineBreak_of_isWordPart (Command.isWordPart_of_isBareWord h p hp)

end

section
variable {s : Session} (reached : s.Reachable) {name : Text} {t : Table}
  (bound : s.table name = .ok t)
include reached bound

theorem execute_printLine :
    s.execute (printLine name) = (.ok { message := t.written, table := some t }, s) := by
  rw [Session.execute_of_ok (statement_printLine (reached.isBareWord bound)), Session.run, bound]
  show ((t.write.map _, s) : Except Error Reply × Session) = _
  rw [(reached.sound bound).write_eq]
  rfl

theorem printMessage_written : printMessage t.written = t.shown :=
  printMessage_asLines fun _ hr hmem => ((reached.sound bound).mem_record hr hmem).1 rfl

theorem handleLine_printLine :
    handleLine { session := s } (printLine name) = (.ok t.shown, { session := s }) := by
  rw [handleLine_of_answer (isForSession_printLine name) (execute_printLine reached bound) rfl,
    printMessage_written reached bound]

theorem runBatch_printLine (verbose : Bool) :
    (runBatch verbose s (printLine name)).output = t.shown ∧
      (runBatch verbose s (printLine name)).status = some 0 := by
  have hcommands : Session.commands (printLine name) = [printLine name] := by
    rw [Session.commands_line (unbroken_printLine (reached.isBareWord bound)),
      List.filter_cons_of_pos (isForSession_printLine name).1]
    rfl
  have hrun : s.runScript (printLine name) =
      (.ok [{ message := t.written, table := some t }], s) := by
    rw [Session.runScript, hcommands, Session.runAll, execute_printLine reached bound]
    rfl
  rw [runBatch, hrun]
  refine ⟨?_, rfl⟩
  rw [← printMessage_written reached bound]
  exact List.append_nil _

/-- The line that prints a table prints its written form without the empty records at the end, save
the first record. -/
theorem print_spec (verbose : Bool) :
    let line := printLine name
    handleLine { session := s } line = (.ok t.shown, { session := s }) ∧
      (runBatch verbose s line).output = t.shown ∧ (runBatch verbose s line).status = some 0 ∧
      s.render name = .ok t.written ∧
      (t.shown = t.written ↔ t.records.length ≤ 1 ∨ t.records.getLast? ≠ some []) := by
  obtain ⟨houtput, hstatus⟩ := runBatch_printLine reached bound verbose
  refine ⟨handleLine_printLine reached bound, houtput, hstatus, ?_, Table.shown_eq_written⟩
  exact bind_eq_ok.mpr ⟨t, bound, (reached.sound bound).write_eq⟩

end

theorem print_spec_sample :
    Session.Sample.session.Reachable ∧
      Session.Sample.session.table "c" = .ok Session.Sample.joined ∧
      handleLine { session := Session.Sample.session } "print c" =
        (.ok Session.Sample.joined.written, { session := Session.Sample.session }) := by
  obtain ⟨hline, -, -, -, hall⟩ :=
    print_spec Session.Sample.reachable_session Session.Sample.table_joined false
  have hwritten := hall.mpr (Or.inr (by decide +kernel))
  exact ⟨Session.Sample.reachable_session, Session.Sample.table_joined, hwritten ▸ hline⟩

/-- The last name of the sample is null, and is not printed. -/
theorem not_print_all :
    ¬∀ (s : Session) (name : Text) (t : Table), s.Reachable → s.table name = .ok t →
      (handleLine { session := s } (printLine name)).1 = s.render name := by
  intro h
  have hprint := h _ _ _ Session.Sample.reachable_session Session.Sample.table_names
  rw [handleLine_printLine Session.Sample.reachable_session Session.Sample.table_names,
    Session.render, Session.Sample.table_names] at hprint
  have hshown : Session.Sample.names.shown ≠ Session.Sample.names.written := by decide +kernel
  exact hshown (Except.ok.inj hprint)

end Shell

end TableAlgebra
