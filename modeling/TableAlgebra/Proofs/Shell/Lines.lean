import TableAlgebra.Proofs.Session.Reachable
import TableAlgebra.Proofs.Table.Aligned
import TableAlgebra.Shell

/-!
# What comes of a line

The shell takes every line, whatever is on it. Its own commands look up tables by the names that
the session lists, names by the columns of a table and texts by its labels, and nothing shields
them from a look-up that finds nothing; in a shell that is reachable all of them find something,
since every table is sound. A command of the session leaves the shell with the session that it
leads to, and what fails leaves the shell alone.

* `Reachable`                  the shells there can be;
* `Table.Sound.viewWithin`, `Table.Sound.describe`, `tableList_eq_ok`   what the look-ups find;
* `runDotCommand_eq_ok`        commands of the shell;
* `Handles sh line text sh'`   what a line may print, and the shell that it may lead to;
* `handleLine_spec`            a line does so, and leaves no table when it leaves the shell.
-/

namespace TableAlgebra

/-! ### What the commands of the shell look up -/

namespace Table

theorem Sound.viewWithin {t : Table} (h : t.Sound) :
    t.viewWithin viewLimit = .ok (t.view viewLimit) :=
  viewWithin_of_le h.isWritable h.isFull (by decide)

theorem Sound.describe {t : Table} (h : t.Sound) : t.describe = .ok t.columns := by
  unfold Table.describe
  rw [if_neg]
  rcases h.header with hnil | hl
  · simp [hasHeader, hnil]
  · simp [width, hl]

end Table

theorem Catalog.exists_of_mem_names {c : Catalog} {name : Text} (h : name ∈ c.names) :
    ∃ t, c.find? name = some t := by
  obtain ⟨entries⟩ := c
  have hmem : name ∈ entries.map (·.1) := List.mem_mergeSort.mp h
  unfold find?
  dsimp only
  clear h
  induction entries with
  | nil => cases hmem
  | cons e es ih =>
    by_cases he : name = e.1
    · exact ⟨e.2, by rw [he]; exact List.lookup_cons_self⟩
    · have hne : (name == e.1) = false := beq_eq_false_iff_ne.mpr he
      rw [List.lookup_cons, hne]
      exact ih ((List.mem_cons.mp hmem).resolve_left he)

theorem Session.Reachable.clear {s : Session} (h : s.Reachable) : s.clear.Reachable := by
  have hs : Command.statement "clear" = .ok .clear := eq_ok_of_toOption (by decide +kernel)
  have hnext := h.execute "clear"
  rwa [execute_of_ok hs] at hnext

namespace Shell

open Session (isCommand)

/-! ### Commands of the shell -/

theorem tableList_eq_ok (s : Session) : ∃ text, tableList s = .ok text := by
  unfold tableList
  split
  · exact ⟨_, rfl⟩
  · have hcount : ∀ name ∈ s.tables.names, ∃ n, s.count name = .ok n := by
      intro name hname
      obtain ⟨t, ht⟩ := Catalog.exists_of_mem_names hname
      exact ⟨t.rows.length, map_eq_ok.mpr ⟨t, Session.table_eq_ok.mpr ht, rfl⟩⟩
    cases hm : s.tables.names.mapM fun name => (s.count name).map fun n =>
        printed ("  " ++ name ++ " (" ++ .ofNat n ++ " rows)") with
    | ok lines => exact ⟨lines.flatten, rfl⟩
    | error e =>
      obtain ⟨before, name, after, hnames, -, hfail⟩ := mapM_eq_error.mp hm
      obtain ⟨n, hn⟩ := hcount name (hnames ▸ List.mem_append_right _ List.mem_cons_self)
      cases (map_eq_error.mp hfail).symm.trans hn

/-- A table that is not there is reported. -/
theorem aboutTable_eq_ok {s : Session} {describe : Text → Table → Except Error Text}
    (h : ∀ name t, s.table name = .ok t → ∃ text, describe name t = .ok text)
    (command argument : Text) : ∃ text, aboutTable s command argument describe = .ok text := by
  unfold aboutTable
  split
  · exact ⟨_, rfl⟩
  · cases hfind : s.tables.find? argument with
    | some t =>
      have ht := Session.table_eq_ok.mpr hfind
      obtain ⟨text, htext⟩ := h argument t ht
      exact ⟨text, by rw [ht, Except.bind, htext]; rfl⟩
    | none =>
      rw [Session.table_eq_error.mpr hfind]
      exact ⟨_, rfl⟩

/-- The command of the shell that a line names, in lower case. -/
def dotName (line : Text) : Text := (splitCommand line).1.lower

def IsFarewell (line : Text) : Prop := dotName line = ".quit" ∨ dotName line = ".exit"

section
variable {sh : Shell} (sound : sh.session.Sound)
include sound

/-- A command of the shell prints something, and changes nothing unless it leaves the shell. -/
theorem runDotCommand_eq_ok (line : Text) :
    (IsFarewell line ∧ sh.runDotCommand line = (.ok farewell, sh.quit)) ∨
      (¬IsFarewell line ∧ ∃ text, sh.runDotCommand line = (.ok text, sh)) := by
  have hname : ∀ {word : String}, (dotName line).string? = some word → dotName line = word :=
    fun h => Text.string?_eq_some.mp h
  have stays : ∀ {word : String} {x : Except Error Text}, (dotName line).string? = some word →
      word ≠ ".quit" → word ≠ ".exit" → (∃ text, x = .ok text) →
      ¬IsFarewell line ∧ ∃ text, (x, sh) = (.ok text, sh) := by
    rintro word x h hquit hexit ⟨text, rfl⟩
    refine ⟨?_, text, rfl⟩
    rintro (hline | hline)
    · exact hquit (Option.some.inj (h.symm.trans (Text.string?_eq_some.mpr hline)))
    · exact hexit (Option.some.inj (h.symm.trans (Text.string?_eq_some.mpr hline)))
  unfold runDotCommand
  dsimp only
  split
  · next h => exact Or.inr (stays h (by decide) (by decide) ⟨_, rfl⟩)
  · next h => exact Or.inr (stays h (by decide) (by decide) (tableList_eq_ok _))
  · next h =>
    refine Or.inr (stays h (by decide) (by decide) (aboutTable_eq_ok (fun name t ht => ?_) _ _))
    exact ⟨_, map_eq_ok.mpr ⟨_, (sound ht).describe, rfl⟩⟩
  · next h =>
    refine Or.inr (stays h (by decide) (by decide) (aboutTable_eq_ok (fun name t ht => ?_) _ _))
    exact ⟨_, rfl⟩
  · next h =>
    refine Or.inr (stays h (by decide) (by decide) (aboutTable_eq_ok (fun name t ht => ?_) _ _))
    exact ⟨_, map_eq_ok.mpr ⟨_, (sound ht).viewWithin, rfl⟩⟩
  · next h => exact Or.inr (stays h (by decide) (by decide) ⟨_, rfl⟩)
  · next h => exact Or.inl ⟨Or.inl (hname h), rfl⟩
  · next h => exact Or.inl ⟨Or.inr (hname h), rfl⟩
  · next hquit hexit =>
    refine Or.inr ⟨?_, _, rfl⟩
    rintro (hline | hline)
    · exact hquit (Text.string?_eq_some.mpr hline)
    · exact hexit (Text.string?_eq_some.mpr hline)

end

/-! ### What a line is -/

theorem ofText_of_not_isCommand {line : Text} (h : isCommand line = false) :
    Line.ofText line = .nothing := by
  rw [isCommand, Bool.and_eq_false_iff, Bool.not_eq_false', Bool.not_eq_false'] at h
  unfold Line.ofText
  rcases h with h | h
  · rw [List.isEmpty_iff.mp h]
  · obtain ⟨rest, hrest⟩ := List.isPrefixOf_iff_prefix.mp h
    rw [← hrest]
    rfl

theorem ofText_of_dot {line : Text} (h : line.strip.head? = some (.char '.')) :
    Line.ofText line = .dot line.strip := by
  obtain ⟨cs, hcs⟩ := List.head?_eq_some_iff.mp h
  rw [Line.ofText, hcs]
  rfl

theorem ofText_of_isCommand {line : Text} (h : isCommand line = true)
    (hdot : line.strip.head? ≠ some (.char '.')) : Line.ofText line = .command line.strip := by
  rw [isCommand, Bool.and_eq_true, Bool.not_eq_true', Bool.not_eq_true'] at h
  obtain ⟨hempty, hcomment⟩ := h
  unfold Line.ofText
  split
  · next hnil =>
    rw [hnil] at hempty
    cases hempty
  · next cs hcs =>
    rw [hcs] at hcomment
    cases hcomment
  · next cs hcs => exact absurd (congrArg List.head? hcs) hdot
  · rfl

/-! ### Reachable shells -/

/-- A shell starts without tables and takes lines; whoever shares its files may change them in
between. -/
inductive Reachable : Shell → Prop
  | start (dataDir : Text) (legacy running : Bool) (files : Storage.Files) :
      Reachable { session := { dataDir, legacy, files }, running }
  | handle {sh : Shell} (reached : Reachable sh) (line : Text) : Reachable (sh.handleLine line).2
  | change {sh : Shell} (reached : Reachable sh) (files : Storage.Files) :
      Reachable { sh with session := { sh.session with files } }

theorem Reachable.session {sh : Shell} (h : sh.Reachable) : sh.session.Reachable := by
  induction h with
  | start dataDir legacy running files => exact .start dataDir legacy files
  | change _ files ih => exact ih.change files
  | @handle sh _ line ih =>
    cases hcommand : isCommand line with
    | false => rwa [handleLine_nothing (ofText_of_not_isCommand hcommand)]
    | true =>
      by_cases hdot : line.strip.head? = some (.char '.')
      · rw [handleLine_dot (ofText_of_dot hdot)]
        rcases runDotCommand_eq_ok ih.sound line.strip with ⟨-, hrun⟩ | ⟨-, text, hrun⟩
        · rw [hrun]
          exact ih.clear
        · rwa [hrun]
      · rw [handleLine_command (ofText_of_isCommand hcommand hdot)]
        have hnext := ih.execute line.strip
        unfold runCommand
        split
        · next hx => rwa [hx] at hnext
        · next hx =>
          rw [hx] at hnext
          dsimp only
          split
          · exact hnext.clear
          · exact hnext

/-! ### Handling a line -/

def IsForSession (line : Text) : Prop := isCommand line = true ∧ line.strip.head? ≠ some (.char '.')

/-- What a line may print, and the shell that it may lead to. -/
inductive Handles (sh : Shell) (line : Text) : Text → Shell → Prop
  | nothing (empty : isCommand line = false) : Handles sh line [] sh
  | dot (own : line.strip.head? = some (.char '.')) (stays : ¬IsFarewell line.strip) (text : Text) :
      Handles sh line text sh
  | leave (own : line.strip.head? = some (.char '.')) (leaves : IsFarewell line.strip) :
      Handles sh line farewell sh.quit
  | refused {e : Error} (other : IsForSession line)
      (failed : sh.session.execute line.strip = (.error e, sh.session))
      (reported : e.isReported = true) : Handles sh line (printed ("Error: " ++ e.message)) sh
  | cutShort {e : Error} {s : Session} {st : Command.Statement} (other : IsForSession line)
      (read : Command.statement line.strip = .ok st)
      (failed : sh.session.execute line.strip = (.error e, s))
      (cut : sh.session.CutShort st e s) (kept : s.tables = sh.session.tables) :
      Handles sh line (printed ("Error: " ++ e.message)) { sh with session := s }
  | broken {e : Error} (other : IsForSession line)
      (failed : sh.session.execute line.strip = (.error e, sh.session))
      (unreported : e.isReported = false) (name : Text) :
      Handles sh line (printed ("Unexpected error: " ++ name)) sh
  | answered {reply : Reply} {s : Session} (other : IsForSession line)
      (done : sh.session.execute line.strip = (.ok reply, s)) (goesOn : reply.stop = false) :
      Handles sh line (printMessage reply.message) { sh with session := s }
  | ended {reply : Reply} {s : Session} (other : IsForSession line)
      (done : sh.session.execute line.strip = (.ok reply, s)) (ends : reply.stop = true) :
      Handles sh line (printMessage reply.message ++ farewell)
        { session := s.clear, running := false }

theorem printError_of_isReported {e : Error} (h : e.isReported = true) :
    printError e = printed ("Error: " ++ e.message) := if_pos h

theorem printError_of_not_isReported {e : Error} (h : e.isReported = false) :
    ∃ name : Text, printError e = printed ("Unexpected error: " ++ name) := by
  unfold printError
  rw [h, if_neg Bool.false_ne_true]
  split
  · exact ⟨"UnicodeEncodeError", rfl⟩
  · exact ⟨"ValueError", rfl⟩

theorem handles_handleLine {sh : Shell} (sound : sh.session.Sound) (line : Text) :
    ∃ text, (sh.handleLine line).1 = .ok text ∧ Handles sh line text (sh.handleLine line).2 := by
  cases hcommand : isCommand line with
  | false =>
    rw [handleLine_nothing (ofText_of_not_isCommand hcommand)]
    exact ⟨[], rfl, .nothing hcommand⟩
  | true =>
    by_cases hdot : line.strip.head? = some (.char '.')
    · rw [handleLine_dot (ofText_of_dot hdot)]
      rcases runDotCommand_eq_ok sound line.strip with ⟨hleave, hrun⟩ | ⟨hstay, text, hrun⟩
      · rw [hrun]
        exact ⟨farewell, rfl, .leave hdot hleave⟩
      · rw [hrun]
        exact ⟨text, rfl, .dot hdot hstay text⟩
    · rw [handleLine_command (ofText_of_isCommand hcommand hdot)]
      refine ⟨_, rfl, ?_⟩
      have hother : IsForSession line := ⟨hcommand, hdot⟩
      dsimp only
      unfold runCommand
      cases hx : sh.session.execute line.strip with
      | mk outcome s =>
        cases outcome with
        | error e =>
          dsimp only
          rcases sound.execute_error hx with rfl | ⟨st, hst, hcut⟩
          · cases he : e.isReported with
            | true =>
              rw [printError_of_isReported he]
              exact .refused hother hx he
            | false =>
              obtain ⟨name, hname⟩ := printError_of_not_isReported he
              rw [hname]
              exact .broken hother hx he name
          · rw [printError_of_isReported hcut.isReported]
            exact .cutShort hother hst hx hcut hcut.tables_eq
        | ok reply =>
          dsimp only
          cases hstop : reply.stop with
          | true => exact .ended hother hx hstop
          | false => exact .answered hother hx hstop

/-- The shell is left without tables. -/
theorem Handles.tables_eq {sh sh' : Shell} {line text : Text} (h : Handles sh line text sh')
    (before : sh.running = true) (after : sh'.running = false) : sh'.session.tables = {} := by
  cases h with
  | nothing | dot | refused | cutShort | broken | answered =>
    exact absurd (before.symm.trans after) (by decide)
  | leave | ended => rfl

/-- Every line of a reachable shell is handled, and a shell that is left holds no table. -/
theorem handleLine_spec {sh : Shell} (reached : sh.Reachable) (line : Text) :
    ∃ text sh', sh.handleLine line = (.ok text, sh') ∧ Handles sh line text sh' ∧
      (sh.running = true → sh'.running = false → sh'.session.tables = {}) := by
  obtain ⟨text, htext, hhandles⟩ := handles_handleLine reached.session.sound line
  exact ⟨text, _, Prod.ext htext rfl, hhandles, hhandles.tables_eq⟩

/-! ### A shell with tables -/

namespace Sample

def shell : Shell :=
  Session.Sample.commands.foldl (fun sh line => (sh.handleLine line).2)
    { session := { files := Session.Sample.files } }

end Sample

theorem Reachable.lines {sh : Shell} (h : sh.Reachable) (lines : List Text) :
    (lines.foldl (fun sh line => (sh.handleLine line).2) sh).Reachable := by
  induction lines generalizing sh with
  | nil => exact h
  | cons line lines ih => exact ih (h.handle line)

theorem handleLine_spec_sample :
    Sample.shell.Reachable ∧ (∃ text, (Sample.shell.handleLine ".show c").1 = .ok text) ∧
      Sample.shell.running = true ∧ (Sample.shell.handleLine " exit ").2.running = false ∧
      (Sample.shell.handleLine " exit ").2.session.tables = {} := by
  have reached : Sample.shell.Reachable :=
    (Reachable.start "." false true Session.Sample.files).lines Session.Sample.commands
  have hbefore : Sample.shell.running = true := by decide +kernel
  have hafter : (Sample.shell.handleLine " exit ").2.running = false := by decide +kernel
  obtain ⟨text, _, hshow, -, -⟩ := handleLine_spec reached ".show c"
  obtain ⟨_, sh', hexit, -, htables⟩ := handleLine_spec reached " exit "
  rw [hexit] at hafter ⊢
  exact ⟨reached, ⟨text, congrArg Prod.fst hshow⟩, hbefore, hafter, htables hbefore hafter⟩

end Shell

end TableAlgebra
