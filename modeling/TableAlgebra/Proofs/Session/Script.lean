import TableAlgebra.Proofs.Command.Blanks
import TableAlgebra.Proofs.Session.Reachable
import TableAlgebra.Proofs.Text.Pieces

/-!
# What a script means

The commands of a script are its lines that hold a token, whatever blanks and comments there are.
They are carried out in order, up to one that ends the session or fails, and a script after
another goes on where that one stopped.

* `isCommand_eq_hasToken`   blank lines and comments are told apart as the lexer does it;
* `Passes`, `Carries`       commands that neither end the session nor fail, and all the ways in
                            which a list of commands can go;
* `carries_runAll`          a list of commands goes in one of them;
* `runAll_append`, `commands_append`   one list after another, one script after another;
* `runScript_spec`          scripts.
-/

namespace TableAlgebra

/-! ### Lines that hold a token -/

namespace Command

def hasToken (line : Text) : Bool :=
  match tokens line with
  | .ok ts => !ts.list.isEmpty
  | .error _ => true

theorem hasToken_eq (line : Text) : hasToken line = !(splitGap false line).2.isEmpty := by
  cases hg : (splitGap false line).2 with
  | nil =>
    obtain ⟨q, hq⟩ := tokensFrom_of_nil (p := .start) hg
    rw [hasToken, tokens, hq]
    rfl
  | cons c rest =>
    obtain ⟨q, hq⟩ := tokensFrom_of_cons .start hg
    rw [hasToken, tokens, hq]
    cases scan q c rest with
    | error e => rfl
    | ok t =>
      dsimp only [bind, Except.bind]
      cases tokensFrom (q.after t.span) t.rest <;> rfl

theorem splitGap_dropWhile (t : Text) :
    (splitGap false (t.dropWhile Text.isBlank)).2 = (splitGap false t).2 := by
  induction t with
  | nil => rfl
  | cons c t ih =>
    by_cases hc : Text.isBlank c = true
    · rw [List.dropWhile_cons_of_pos hc, ih, splitGap, if_neg Bool.false_ne_true, if_pos hc]
    · rw [List.dropWhile_cons_of_neg hc]

theorem splitGap_cons {c : Text.Point} (h : Text.isBlank c = false) (cs : Text) :
    (splitGap false (c :: cs)).2 =
      if c = .char '-' && cs.head? = some (.char '-') then (splitGap true cs).2 else c :: cs := by
  rw [splitGap, if_neg Bool.false_ne_true, h, if_neg Bool.false_ne_true]
  show (if c = .char '-' && cs.head? = some (.char '-') then _ else _ : Text × Text).2 = _
  split <;> rfl

end Command

namespace Session

open Command (hasToken)

theorem isPrefixOf_comment (c : Text.Point) (cs : Text) :
    ("--" : Text).isPrefixOf (c :: Text.dropEndWhile Text.isBlank cs) =
      (c = .char '-' && cs.head? = some (.char '-')) := by
  have hdash : Text.isBlank (.char '-') = false := by decide
  have hnext := Text.head?_dropEndWhile (t := cs) hdash
  rw [Bool.eq_iff_iff, List.isPrefixOf_iff_prefix, Bool.and_eq_true, decide_eq_true_iff,
    decide_eq_true_iff, ← hnext]
  constructor
  · rintro ⟨rest, h⟩
    obtain ⟨hc, hcs⟩ := List.cons.inj h
    exact ⟨hc.symm, by rw [← hcs]; rfl⟩
  · rintro ⟨rfl, h⟩
    obtain ⟨rest, hrest⟩ := List.head?_eq_some_iff.mp h
    exact ⟨rest, by rw [hrest]; rfl⟩

/-- The blank lines and comments of a script are the lines without a token. -/
theorem isCommand_eq_hasToken {line : Text} (h : .char '\n' ∉ line) :
    isCommand line = hasToken line := by
  rw [Command.hasToken_eq, ← Command.splitGap_dropWhile, isCommand, Text.strip]
  have hmem : .char '\n' ∉ line.dropWhile Text.isBlank := fun hm =>
    h ((List.dropWhile_sublist _).mem hm)
  cases hd : line.dropWhile Text.isBlank with
  | nil => rfl
  | cons c cs =>
    have hblank : Text.isBlank c = false := by
      have hhead := List.head?_dropWhile_not Text.isBlank line
      rw [hd] at hhead
      simpa using hhead
    rw [hd] at hmem
    have hgap := Command.splitGap_comment fun hm => hmem (List.mem_cons_of_mem _ hm)
    rw [Text.dropEndWhile_cons hblank, isPrefixOf_comment, Command.splitGap_cons hblank, hgap]
    cases (c = .char '-' && cs.head? = some (.char '-') : Bool) <;> rfl

theorem commands_eq (script : Text) : commands script = script.splitLines.filter hasToken := by
  refine List.filter_congr fun line hline => isCommand_eq_hasToken fun hm => ?_
  have hbreak := (Text.mem_splitLines hline _ hm).1
  exact absurd hbreak (by decide)

theorem commands_append (script more : Text) :
    commands (script ++ .char '\n' :: more) = commands script ++ commands more := by
  obtain ⟨ls, hls, hsplit⟩ := Text.splitLines_append_newline script more
  have hempty : ls.filter isCommand = [] := by
    rcases hls with rfl | rfl <;> rfl
  rw [commands, hsplit, List.filter_append, List.filter_append, hempty]
  rfl

/-! ### Commands one after the other -/

/-- The commands answer one after the other, and none of them ends the session. -/
inductive Passes : Session → List Text → List Reply → Session → Prop
  | nil (s : Session) : Passes s [] [] s
  | cons {s s₁ s₂ : Session} {command : Text} {commands : List Text} {reply : Reply}
      {replies : List Reply} (answered : s.execute command = (.ok reply, s₁))
      (goesOn : reply.stop = false) (others : Passes s₁ commands replies s₂) :
      Passes s (command :: commands) (reply :: replies) s₂

/-- The ways in which commands can go: all of them pass, or one ends the session, or one fails and
leaves the session as the others before it left it. In a reachable session the files are the same
then, unless the command is a save that is cut short. -/
inductive Carries (s : Session) : List Text → Except Error (List Reply) × Session → Prop
  | all {commands : List Text} {replies : List Reply} {s' : Session}
      (passes : Passes s commands replies s') : Carries s commands (.ok replies, s')
  | stop {before after : List Text} {command : Text} {replies : List Reply} {reply : Reply}
      {s₁ s₂ : Session} (passes : Passes s before replies s₁)
      (answered : s₁.execute command = (.ok reply, s₂)) (ends : reply.stop = true) :
      Carries s (before ++ command :: after) (.ok (replies ++ [reply]), s₂)
  | fail {before after : List Text} {command : Text} {replies : List Reply} {e : Error}
      {s₁ : Session} {files : Storage.Files} (passes : Passes s before replies s₁)
      (failed : s₁.execute command = (.error e, { s₁ with files }))
      (kept : s.Reachable → files = s₁.files ∨
        ∃ st, Command.statement command = .ok st ∧ CutShort s₁ st e { s₁ with files }) :
      Carries s (before ++ command :: after) (.error e, { s₁ with files })

theorem execute_error_eq {s s' : Session} {command : Text} {e : Error}
    (h : s.execute command = (.error e, s')) : s' = { s with files := s'.files } := by
  unfold execute at h
  split at h
  · next st _ =>
    cases st with
    | define | load | assign =>
      rw [(settle_eq_error.mp h).2]
    | save name target =>
      have hsave : (s.save name target).2 = s' := congrArg Prod.snd h
      rw [← hsave]
      exact save_snd s name target
    | print | check =>
      have hs : s = s' := congrArg Prod.snd h
      rw [← hs]
    | remove | clear | exit => cases h
  · cases h
    rfl

theorem Carries.cons {s s₁ : Session} {command : Text} {commands : List Text} {reply : Reply}
    {x : Except Error (List Reply) × Session} (answered : s.execute command = (.ok reply, s₁))
    (goesOn : reply.stop = false) (h : Carries s₁ commands x) :
    Carries s (command :: commands) (x.1.map (reply :: ·), x.2) := by
  cases h with
  | all passes => exact .all (.cons answered goesOn passes)
  | stop passes last ends => exact .stop (.cons answered goesOn passes) last ends
  | fail passes failed kept =>
    refine .fail (.cons answered goesOn passes) failed fun reached => kept ?_
    have hnext := reached.execute command
    rwa [answered] at hnext

theorem carries_runAll (s : Session) (commands : List Text) :
    Carries s commands (s.runAll commands) := by
  induction commands generalizing s with
  | nil => exact .all (.nil s)
  | cons command commands ih =>
    rw [runAll]
    cases hx : s.execute command with
    | mk outcome s₁ =>
      cases outcome with
      | error e =>
        have hsession := execute_error_eq hx
        have hkept : s.Reachable → s₁.files = s.files ∨
            ∃ st, Command.statement command = .ok st ∧ CutShort s st e s₁ := fun reached =>
          (reached.sound.execute_error hx).imp (congrArg Session.files) id
        rw [hsession] at hx hkept ⊢
        exact Carries.fail (.nil s) hx hkept
      | ok reply =>
        dsimp only
        cases hstop : reply.stop with
        | true => exact Carries.stop (.nil s) hx hstop
        | false => exact (ih s₁).cons hx hstop

/-! ### One script after another -/

/-- Goes on with a script, unless a command has failed or ended the session. -/
def andThen (x : Except Error (List Reply) × Session)
    (run : Session → Except Error (List Reply) × Session) : Except Error (List Reply) × Session :=
  match x with
  | (.error e, s) => (.error e, s)
  | (.ok replies, s) =>
    if replies.any (·.stop) then (.ok replies, s)
    else ((run s).1.map (replies ++ ·), (run s).2)

theorem andThen_cons {reply : Reply} (goesOn : reply.stop = false)
    (x : Except Error (List Reply) × Session)
    (run : Session → Except Error (List Reply) × Session) :
    andThen (x.1.map (reply :: ·), x.2) run =
      ((andThen x run).1.map (reply :: ·), (andThen x run).2) := by
  obtain ⟨outcome, s⟩ := x
  cases outcome with
  | error e => rfl
  | ok replies =>
    have hany : (reply :: replies).any (·.stop) = replies.any (·.stop) := by
      rw [List.any_cons, goesOn, Bool.false_or]
    show (if (reply :: replies).any (·.stop) then _ else _) = _
    dsimp only [andThen]
    rw [hany]
    split
    · rfl
    · cases (run s).1 <;> rfl

theorem runAll_append (s : Session) (commands more : List Text) :
    s.runAll (commands ++ more) = andThen (s.runAll commands) (·.runAll more) := by
  induction commands generalizing s with
  | nil =>
    show s.runAll more = ((s.runAll more).1.map ([] ++ ·), (s.runAll more).2)
    cases s.runAll more with
    | mk x s' => cases x <;> rfl
  | cons command commands ih =>
    rw [List.cons_append, runAll, runAll]
    cases hx : s.execute command with
    | mk outcome s₁ =>
      cases outcome with
      | error e => rfl
      | ok reply =>
        dsimp only
        cases hstop : reply.stop with
        | true => simp [andThen, hstop]
        | false =>
          rw [if_neg Bool.false_ne_true, if_neg Bool.false_ne_true, ih s₁]
          exact (andThen_cons hstop _ _).symm

/-- The lines of a script that hold a token are carried out one after the other, and a script goes
on where the one before it stopped. -/
theorem runScript_spec (s : Session) (script : Text) :
    Carries s (script.splitLines.filter hasToken) (s.runScript script) ∧
      ∀ more, s.runScript (script ++ .char '\n' :: more) =
        andThen (s.runScript script) (·.runScript more) := by
  constructor
  · rw [← commands_eq]
    exact carries_runAll s (commands script)
  · intro more
    rw [runScript, commands_append, runAll_append]
    rfl

end Session

end TableAlgebra
