import TableAlgebra.Proofs.Command.Blanks
import TableAlgebra.Proofs.Session.Script
import TableAlgebra.Proofs.Shell.Lines
import TableAlgebra.Shell.CommandLine

/-!
# Lines one by one and all at once

A batch cuts a script into lines, carries out the commands among them and prints their answers once
all of them have come. The shell takes the same lines one by one, without the blanks around them,
prints as it goes, and goes on after a command that fails. As long as no line is for the shell
itself both do the same, up to the first command that fails or ends the session.

* `commands_joined`        the commands of a script that is made of lines;
* `execute_strip`          a command answers the same without the blanks around it;
* `Stays`, `Leaves`, `Fails`   the ways in which the lines can go in a shell;
* `stays_of_passes`        commands that answer one after the other do so line by line;
* `runBatch_spec`          what a batch prints and leaves, and how the lines go in a shell.
-/

namespace TableAlgebra

/-! ### Commands of lines -/

namespace Session

/-- A line that says to end the session is a command. -/
theorem isCommand_of_exit {line : Text} (h : Command.statement line = .ok .exit)
    (unbroken : .char '\n' ∉ line) : isCommand line = true := by
  rw [isCommand_eq_hasToken unbroken, Command.hasToken]
  obtain ⟨ts, hts, hst⟩ := bind_eq_ok.mp h
  obtain ⟨ls, hls, hlexemes⟩ := Command.Tokens.statement_eq_ok.mp hst
  rw [hts]
  cases hlist : ts.list with
  | cons t list =>
    dsimp only
    rw [hlist]
    rfl
  | nil =>
    cases hls
    rw [Command.Tokens.lexemes, hlist] at hlexemes
    rcases hlexemes with h | h <;> cases h

theorem commands_line {line : Text} (unbroken : ∀ p ∈ line, Text.isLineBreak p = false) :
    commands line = [line].filter isCommand := by
  by_cases hne : line = []
  · rw [hne]
    rfl
  · rw [commands, Text.splitLines_eq_self hne unbroken]

theorem commands_joined {lines : List Text}
    (unbroken : ∀ line ∈ lines, ∀ p ∈ line, Text.isLineBreak p = false) :
    commands (Text.joined "\n" lines) = lines.filter isCommand := by
  induction lines with
  | nil => rfl
  | cons line lines ih =>
    obtain ⟨hline, hlines⟩ := List.forall_mem_cons.mp unbroken
    cases lines with
    | nil =>
      rw [Text.joined, List.intercalate_singleton]
      exact commands_line hline
    | cons next lines =>
      have hsplit : Text.joined "\n" (line :: next :: lines) =
          line ++ .char '\n' :: Text.joined "\n" (next :: lines) := by
        rw [Text.joined, List.intercalate_cons_cons, List.append_assoc]
        rfl
      rw [hsplit, commands_append, commands_line hline, ih hlines, ← List.filter_append]
      rfl

theorem carries_joined {lines : List Text}
    (unbroken : ∀ line ∈ lines, ∀ p ∈ line, Text.isLineBreak p = false) (s : Session) :
    Carries s (lines.filter isCommand) (s.runScript (Text.joined "\n" lines)) := by
  rw [runScript, commands_joined unbroken]
  exact carries_runAll s _

/-! ### Commands without the blanks around them -/

theorem execute_strip {s s' : Session} {command : Text} {reply : Reply}
    (h : s.execute command = (.ok reply, s')) : s.execute command.strip = (.ok reply, s') := by
  cases hst : Command.statement command with
  | error e =>
    rw [execute_of_error hst] at h
    cases h
  | ok st =>
    rw [execute_of_ok (Command.statement_strip.mpr hst), ← execute_of_ok hst]
    exact h

/-- The error may be another one: it may tell of a place in the command. -/
theorem execute_strip_error {s s' : Session} {command : Text} {e : Error}
    (h : s.execute command = (.error e, s')) :
    ∃ e', s.execute command.strip = (.error e', s') := by
  cases hst : Command.statement command with
  | ok st =>
    rw [execute_of_ok hst] at h
    exact ⟨e, by rw [execute_of_ok (Command.statement_strip.mpr hst), h]⟩
  | error err =>
    rw [execute_of_error hst] at h
    cases hstrip : Command.statement command.strip with
    | ok st => cases hst.symm.trans (Command.statement_strip.mp hstrip)
    | error e' => exact ⟨e', by rw [execute_of_error hstrip, (Prod.mk.inj h).2]⟩

/-- Only an exit ends the session. -/
theorem stop_of_run {s s' : Session} {st : Command.Statement} {reply : Reply}
    (h : s.run st = (.ok reply, s')) : reply.stop = true ↔ st = .exit := by
  have goesOn : ∀ {st : Command.Statement} {reply : Reply}, reply.stop = false → st ≠ .exit →
      (reply.stop = true ↔ st = .exit) := fun hr hst =>
    iff_of_false (Bool.eq_false_iff.mp hr) hst
  cases st with
  | define | load =>
    obtain ⟨⟨t, s₁⟩, -, h⟩ := map_eq_ok.mp (settle_eq_ok.mp h)
    cases h
    exact goesOn rfl Command.Statement.noConfusion
  | save =>
    obtain ⟨x, -, hr⟩ := map_eq_ok.mp (congrArg Prod.fst h)
    rw [← hr]
    exact goesOn rfl Command.Statement.noConfusion
  | print | check =>
    obtain ⟨x, -, hx⟩ := bind_eq_ok.mp (congrArg Prod.fst h)
    obtain ⟨text, -, hr⟩ := map_eq_ok.mp hx
    rw [← hr]
    exact goesOn rfl Command.Statement.noConfusion
  | remove | clear =>
    cases h
    exact goesOn rfl Command.Statement.noConfusion
  | exit =>
    cases h
    exact iff_of_true rfl rfl
  | assign target op =>
    obtain ⟨u, -, h⟩ := map_eq_ok.mp (settle_eq_ok.mp h)
    unfold assign at h
    split at h <;> cases h <;> exact goesOn rfl Command.Statement.noConfusion

/-- What ends the session is an exit, and it changes nothing. -/
theorem execute_stop {s s' : Session} {command : Text} {reply : Reply}
    (h : s.execute command = (.ok reply, s')) (ends : reply.stop = true) :
    Command.statement command = .ok .exit ∧ s' = s := by
  cases hst : Command.statement command with
  | error e =>
    rw [execute_of_error hst] at h
    cases h
  | ok st =>
    rw [execute_of_ok hst] at h
    obtain rfl := (stop_of_run h).mp ends
    cases h
    exact ⟨rfl, rfl⟩

/-- None of the commands that pass is an exit. -/
theorem Passes.ne_exit {s s' : Session} {commands : List Text} {replies : List Reply}
    (h : Passes s commands replies s') :
    ∀ command ∈ commands, Command.statement command ≠ .ok .exit := by
  induction h with
  | nil => exact fun command hmem => absurd hmem List.not_mem_nil
  | cons answered goesOn others ih =>
    refine List.forall_mem_cons.mpr ⟨fun hexit => ?_, ih⟩
    rw [execute_of_ok hexit] at answered
    exact Bool.false_ne_true (goesOn.symm.trans ((stop_of_run answered).mpr rfl))

end Session

namespace Shell

open Session (isCommand Passes Carries)

/-! ### Lines one by one -/

def handleLines (sh : Shell) : List Text → Except Error Text × Shell
  | [] => (.ok [], sh)
  | line :: lines =>
    if sh.running then
      match sh.handleLine line with
      | (.error e, sh') => (.error e, sh')
      | (.ok text, sh') => ((handleLines sh' lines).1.map (text ++ ·), (handleLines sh' lines).2)
    else (.ok [], sh)

theorem handleLines_cons {sh sh' : Shell} {line text : Text} (running : sh.running = true)
    (h : sh.handleLine line = (.ok text, sh')) (lines : List Text) :
    sh.handleLines (line :: lines) =
      ((sh'.handleLines lines).1.map (text ++ ·), (sh'.handleLines lines).2) := by
  rw [handleLines, if_pos running, h]

theorem handleLines_of_left {sh : Shell} (left : sh.running = false) (lines : List Text) :
    sh.handleLines lines = (.ok [], sh) := by
  cases lines with
  | nil => rfl
  | cons line lines => rw [handleLines, left, if_neg Bool.false_ne_true]

theorem handleLines_append {sh sh' : Shell} {before : List Text} {text : Text}
    (h : sh.handleLines before = (.ok text, sh')) (after : List Text) :
    sh.handleLines (before ++ after) =
      ((sh'.handleLines after).1.map (text ++ ·), (sh'.handleLines after).2) := by
  induction before generalizing sh text with
  | nil =>
    cases h
    show sh'.handleLines after =
      ((sh'.handleLines after).1.map ([] ++ ·), (sh'.handleLines after).2)
    cases sh'.handleLines after with
    | mk x sh'' => cases x <;> rfl
  | cons line before ih =>
    cases hrunning : sh.running with
    | false =>
      rw [handleLines_of_left hrunning] at h
      cases h
      rw [handleLines_of_left hrunning, handleLines_of_left hrunning]
      rfl
    | true =>
      cases hline : sh.handleLine line with
      | mk x sh₁ =>
        cases x with
        | error e =>
          rw [handleLines, if_pos hrunning, hline] at h
          cases h
        | ok head =>
          rw [handleLines_cons hrunning hline] at h
          obtain ⟨hrest, hsh⟩ := Prod.mk.inj h
          obtain ⟨rest, hbefore, rfl⟩ := map_eq_ok.mp hrest
          rw [List.cons_append, handleLines_cons hrunning hline, ih (Prod.ext hbefore hsh)]
          cases (sh'.handleLines after).1 with
          | error e => rfl
          | ok more =>
            show (Except.ok (head ++ (rest ++ more)), _) = (Except.ok (head ++ rest ++ more), _)
            rw [List.append_assoc]

/-! ### The ways in which lines go -/

def printReplies (replies : List Reply) : Text := replies.flatMap fun r => printMessage r.message

/-- All commands of the lines answer, and none of them leaves the shell. -/
structure Stays (s : Session) (lines : List Text) (text : Text) (s' : Session) : Prop where
  answer : ∃ replies, Passes s (lines.filter isCommand) replies s'
  noExit : ∀ line ∈ lines, Command.statement line ≠ .ok .exit
  shell : handleLines { session := s } lines = (.ok text, { session := s' })

/-- The commands of the lines answer up to one that leaves the shell. -/
structure Leaves (s : Session) (lines : List Text) (text : Text) (s' : Session) : Prop where
  exit : ∃ before line after text', lines = before ++ line :: after ∧ Stays s before text' s' ∧
    Command.statement line = .ok .exit
  shell : handleLines { session := s } lines =
    (.ok (text ++ farewell), { session := s'.clear, running := false })

/-- The commands of the lines answer up to one that fails. It leaves the tables as the others left
them, and the files unless it is a save that is cut short. -/
def Fails (s : Session) (lines : List Text) (s' : Session) : Prop :=
  ∃ before line after text s₁ e, lines = before ++ line :: after ∧ Stays s before text s₁ ∧
    isCommand line = true ∧ s₁.execute line.strip = (.error e, s') ∧ s'.tables = s₁.tables ∧
      (s' = s₁ ∨ ∃ st, Command.statement line = .ok st ∧ s₁.CutShort st e s')

section
variable {s s' : Session} {line : Text} {reply : Reply} (other : IsForSession line)
include other

theorem handleLine_of_answer (h : s.execute line = (.ok reply, s')) (goesOn : reply.stop = false) :
    handleLine { session := s } line = (.ok (printMessage reply.message), { session := s' }) := by
  rw [handleLine_command (ofText_of_isCommand other.1 other.2), runCommand]
  dsimp only
  rw [Session.execute_strip h]
  dsimp only
  rw [goesOn, if_neg Bool.false_ne_true]

theorem handleLine_of_end (h : s.execute line = (.ok reply, s')) (ends : reply.stop = true) :
    handleLine { session := s } line = (.ok (printMessage reply.message ++ farewell),
      { session := s'.clear, running := false }) := by
  rw [handleLine_command (ofText_of_isCommand other.1 other.2), runCommand]
  dsimp only
  rw [Session.execute_strip h]
  dsimp only
  rw [if_pos ends]
  rfl

end

theorem handleLines_of_passes {s s' : Session} {lines : List Text} {replies : List Reply}
    (noDot : ∀ line ∈ lines, line.strip.head? ≠ some (.char '.'))
    (h : Passes s (lines.filter isCommand) replies s') :
    handleLines { session := s } lines = (.ok (printReplies replies), { session := s' }) := by
  induction lines generalizing s replies with
  | nil =>
    cases h
    rfl
  | cons line lines ih =>
    obtain ⟨hline, hlines⟩ := List.forall_mem_cons.mp noDot
    cases hcommand : isCommand line with
    | false =>
      rw [List.filter_cons_of_neg (Bool.eq_false_iff.mp hcommand)] at h
      rw [handleLines_cons rfl (handleLine_nothing (ofText_of_not_isCommand hcommand)), ih hlines h]
      rfl
    | true =>
      rw [List.filter_cons_of_pos hcommand] at h
      cases h with
      | cons answered goesOn others =>
        rw [handleLines_cons rfl (handleLine_of_answer ⟨hcommand, hline⟩ answered goesOn),
          ih hlines others]
        rfl

section
variable {s : Session} {lines : List Text}
  (unbroken : ∀ line ∈ lines, ∀ p ∈ line, Text.isLineBreak p = false)
  (noDot : ∀ line ∈ lines, line.strip.head? ≠ some (.char '.'))
include unbroken noDot

theorem stays_of_passes {s' : Session} {replies : List Reply}
    (h : Passes s (lines.filter isCommand) replies s') :
    Stays s lines (printReplies replies) s' where
  answer := ⟨replies, h⟩
  noExit line hline hexit := by
    have hfeed : .char '\n' ∉ line := fun hmem => absurd (unbroken line hline _ hmem) (by decide)
    have hcommand := Session.isCommand_of_exit hexit hfeed
    exact h.ne_exit line (List.mem_filter.mpr ⟨hline, hcommand⟩) hexit
  shell := handleLines_of_passes noDot h

/-- The lines up to a command, of the lines that hold these commands. -/
theorem exists_split {before after : List Text} {command : Text}
    (h : lines.filter isCommand = before ++ command :: after) :
    ∃ front back, lines = front ++ command :: back ∧ front.filter isCommand = before ∧
      IsForSession command := by
  obtain ⟨front, rest, rfl, rfl, hrest⟩ := List.filter_eq_append_iff.mp h
  obtain ⟨blank, back, rfl, hblank, hcommand, -⟩ := List.filter_eq_cons_iff.mp hrest
  refine ⟨front ++ blank, back, (List.append_assoc ..).symm, ?_, hcommand, ?_⟩
  · rw [List.filter_append, List.filter_eq_nil_iff.mpr hblank, List.append_nil]
  · exact noDot command (by simp)

theorem leaves_of_stop {before after : List Text} {command : Text} {replies : List Reply}
    {reply : Reply} {s₁ s₂ : Session} (h : lines.filter isCommand = before ++ command :: after)
    (passes : Passes s before replies s₁) (answered : s₁.execute command = (.ok reply, s₂))
    (ends : reply.stop = true) : Leaves s lines (printReplies (replies ++ [reply])) s₂ := by
  obtain ⟨front, back, rfl, rfl, hcommand⟩ := exists_split unbroken noDot h
  obtain ⟨hexit, rfl⟩ := Session.execute_stop answered ends
  have hstays := stays_of_passes (fun line hl => unbroken line (List.mem_append_left _ hl))
    (fun line hl => noDot line (List.mem_append_left _ hl)) passes
  refine ⟨⟨front, command, back, _, rfl, hstays, hexit⟩, ?_⟩
  have hprint : printReplies (replies ++ [reply]) =
      printReplies replies ++ printMessage reply.message := by
    rw [printReplies, printReplies, List.flatMap_append, List.flatMap_singleton]
  rw [handleLines_append hstays.shell,
    handleLines_cons rfl (handleLine_of_end hcommand answered ends), handleLines_of_left rfl,
    hprint, List.append_assoc]
  show (Except.ok (printReplies replies ++ (printMessage reply.message ++ farewell ++ [])), _) = _
  rw [List.append_nil]

theorem fails_of_error {before after : List Text} {command : Text} {replies : List Reply}
    {e : Error} {s₁ s' : Session} (h : lines.filter isCommand = before ++ command :: after)
    (passes : Passes s before replies s₁) (failed : s₁.execute command = (.error e, s'))
    (kept : s' = s₁ ∨ ∃ st, Command.statement command = .ok st ∧ s₁.CutShort st e s') :
    Fails s lines s' := by
  obtain ⟨front, back, rfl, rfl, hcommand⟩ := exists_split unbroken noDot h
  have hstays := stays_of_passes (fun line hl => unbroken line (List.mem_append_left _ hl))
    (fun line hl => noDot line (List.mem_append_left _ hl)) passes
  rcases kept with hs | ⟨st, hst, hcut⟩
  · obtain ⟨e', hstrip⟩ := Session.execute_strip_error failed
    exact ⟨front, command, back, _, s₁, e', rfl, hstays, hcommand.1, hstrip,
      congrArg Session.tables hs, .inl hs⟩
  · have hstrip : s₁.execute command.strip = (.error e, s') := by
      rw [Session.execute_of_ok (Command.statement_strip.mpr hst), ← Session.execute_of_ok hst]
      exact failed
    exact ⟨front, command, back, _, s₁, e, rfl, hstays, hcommand.1, hstrip, hcut.tables_eq,
      .inr ⟨st, hst, hcut⟩⟩

end

/-! ### Batches -/

/-- A script that answers prints what the shell prints for its lines, save the farewell; one that
fails prints nothing, and leaves the tables that the shell has come to before the failing line. -/
theorem runBatch_spec {s : Session} (reached : s.Reachable) {lines : List Text}
    (unbroken : ∀ line ∈ lines, ∀ p ∈ line, Text.isLineBreak p = false)
    (noDot : ∀ line ∈ lines, line.strip.head? ≠ some (.char '.')) (verbose : Bool) :
    let script := Text.joined "\n" lines
    let batch := runBatch verbose s script
    (∀ replies, (s.runScript script).1 = .ok replies →
      batch.status = some 0 ∧ batch.failure = none ∧
        (Stays s lines batch.output batch.session ∨ Leaves s lines batch.output batch.session)) ∧
    (∀ e, (s.runScript script).1 = .error e → e.isReported = true →
      batch.status = some 1 ∧ batch.failure = none ∧ batch.output = [] ∧
        Fails s lines batch.session) := by
  have hgoes := Session.carries_joined unbroken s
  dsimp only
  unfold runBatch
  generalize s.runScript (Text.joined "\n" lines) = x at hgoes ⊢
  generalize hcommands : lines.filter isCommand = commands at hgoes
  cases hgoes with
  | all passes =>
    refine ⟨fun _ _ => ⟨rfl, rfl, Or.inl ?_⟩, fun e he => (nomatch he)⟩
    exact stays_of_passes unbroken noDot (hcommands.symm ▸ passes)
  | stop passes answered ends =>
    refine ⟨fun _ _ => ⟨rfl, rfl, Or.inr ?_⟩, fun e he => (nomatch he)⟩
    exact leaves_of_stop unbroken noDot hcommands passes answered ends
  | fail passes failed kept =>
    refine ⟨fun _ h => (nomatch h), fun e he hreported => ?_⟩
    cases he
    dsimp only
    rw [if_pos hreported]
    refine ⟨rfl, rfl, rfl, fails_of_error unbroken noDot hcommands passes failed ?_⟩
    exact (kept reached).imp_left fun hfiles => by rw [hfiles]

namespace Sample

def leaving : List Text := ["define t (int)", "  print t ", "-- and out", "exit", "print t"]

def failing : List Text := ["define t (int)", "print u", "remove t"]

end Sample

theorem runBatch_spec_sample :
    let batch := fun lines => runBatch false {} (Text.joined "\n" lines)
    Session.Reachable {} ∧
      (∀ line ∈ Sample.leaving ++ Sample.failing, ∀ p ∈ line, Text.isLineBreak p = false) ∧
      (∀ line ∈ Sample.leaving ++ Sample.failing, line.strip.head? ≠ some (.char '.')) ∧
      (batch Sample.leaving).status = some 0 ∧
      Leaves {} Sample.leaving (batch Sample.leaving).output (batch Sample.leaving).session ∧
      (batch Sample.failing).status = some 1 ∧
      Fails {} Sample.failing (batch Sample.failing).session := by
  have reached : Session.Reachable {} := .start "." false {}
  have hunbroken : ∀ line ∈ Sample.leaving ++ Sample.failing,
      ∀ p ∈ line, Text.isLineBreak p = false := by decide +kernel
  have hnoDot : ∀ line ∈ Sample.leaving ++ Sample.failing,
      line.strip.head? ≠ some (.char '.') := by decide +kernel
  obtain ⟨hleft, -⟩ := runBatch_spec reached (List.forall_mem_append.mp hunbroken).1
    (List.forall_mem_append.mp hnoDot).1 false
  obtain ⟨-, hfailed⟩ := runBatch_spec reached (List.forall_mem_append.mp hunbroken).2
    (List.forall_mem_append.mp hnoDot).2 false
  have hexit : Command.statement "exit" = .ok .exit := eq_ok_of_toOption (by decide +kernel)
  obtain ⟨replies, hreplies⟩ : ∃ replies,
      (Session.runScript {} (Text.joined "\n" Sample.leaving)).1 = .ok replies :=
    ⟨_, eq_ok_of_toOption (Option.some_get (by decide +kernel)).symm⟩
  have hnone : (Session.runScript {} (Text.joined "\n" Sample.failing)).1 =
      .error (.noSuchTable "u") := by decide +kernel
  obtain ⟨hstatus, -, hstays | hleaves⟩ := hleft replies hreplies
  · exact absurd hexit (hstays.noExit "exit" (by decide))
  · obtain ⟨hstatus', -, -, hfails⟩ := hfailed _ hnone rfl
    exact ⟨reached, hunbroken, hnoDot, hstatus, hleaves, hstatus', hfails⟩

end Shell

end TableAlgebra
