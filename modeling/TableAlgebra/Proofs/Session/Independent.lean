import TableAlgebra.Proofs.Session.Reachable

/-!
# Statements that commute

Carrying out a statement makes one change to a session, and the change and the answer depend on
little of it: on the tables that the statement looks up and, if it loads or saves, on the files.
So two statements commute when neither may bind a name that the other looks up or may bind, and
when they do not meet in the files.

* `Change`, `change`               the change that a statement makes (`run_snd`);
* `answer_congr`, `change_congr`   what the answer and the change depend on;
* `Change.apply_comm`              changes of different names commute;
* `run_comm`                       independent statements do.
-/

namespace TableAlgebra

open Command (Statement Operation)
open Storage (Feed Files)

/-! ### What a statement looks up and what it may bind -/

namespace Command

def Statement.LooksUp : Statement → Text → Prop
  | .load t .., n | .save t _, n | .print t, n | .remove t, n => n = t
  | .check t _ u _, n => n = t ∨ n = u
  | .assign _ o, n => n ∈ o.operands
  | .define .., _ | .clear, _ | .exit, _ => False

def Statement.MayBind : Statement → Text → Prop
  | .define t _, n | .load t .., n | .remove t, n | .assign t _, n => n = t
  | .clear, _ => True
  | .save .., _ | .print _, _ | .check .., _ | .exit, _ => False

def Statement.UsesFiles : Statement → Prop
  | .load .. | .save .. => True
  | _ => False

def Statement.WritesFiles : Statement → Prop
  | .save .. => True
  | _ => False

theorem Statement.WritesFiles.usesFiles {st : Statement} (h : st.WritesFiles) :
    st.UsesFiles := by
  cases st with
  | save => exact h
  | _ => cases h

/-- Neither statement may bind a name that the other looks up or may bind, and if one saves, the
other neither loads nor saves. -/
structure Independent (st₁ st₂ : Statement) : Prop where
  left : ∀ n, st₁.MayBind n → ¬st₂.LooksUp n ∧ ¬st₂.MayBind n
  right : ∀ n, st₂.MayBind n → ¬st₁.LooksUp n ∧ ¬st₁.MayBind n
  leftFiles : st₁.WritesFiles → ¬st₂.UsesFiles
  rightFiles : st₂.WritesFiles → ¬st₁.UsesFiles

theorem Independent.symm {st₁ st₂ : Statement} (h : Independent st₁ st₂) :
    Independent st₂ st₁ := ⟨h.right, h.left, h.rightFiles, h.leftFiles⟩

end Command

namespace Session

/-! ### Changes -/

/-- A change to a session. -/
inductive Change where
  | nothing
  | bind (name : Text) (t : Table)
  | unbind (name : Text)
  | unbindAll
  | write (files : Files)

namespace Change

def apply (s : Session) : Change → Session
  | nothing => s
  | bind name t => s.store name t
  | unbind name => s.remove name
  | unbindAll => s.clear
  | write files => { s with files }

def Touches : Change → Text → Prop
  | bind name _, n | unbind name, n => n = name
  | unbindAll, _ => True
  | nothing, _ | write _, _ => False

def files? : Change → Option Files
  | write files => some files
  | _ => none

theorem table_apply_of_not_touches {c : Change} {n : Text} (h : ¬c.Touches n) (s : Session) :
    (c.apply s).table n = s.table n := by
  cases c with
  | nothing | write files => rfl
  | bind name t => exact table_store_of_ne h t
  | unbind name => exact table_remove_of_ne h
  | unbindAll => exact absurd trivial h

theorem table_apply_of_touches {c : Change} {n : Text} (h : c.Touches n) (s s' : Session) :
    (c.apply s).table n = (c.apply s').table n := by
  cases c with
  | nothing | write files => cases h
  | bind name t =>
    cases h
    exact (table_store_self s n t).trans (table_store_self s' n t).symm
  | unbind name =>
    cases h
    exact (table_remove_self s n).trans (table_remove_self s' n).symm
  | unbindAll => rfl

theorem files_apply (c : Change) (s : Session) : (c.apply s).files = c.files?.getD s.files := by
  cases c <;> rfl

theorem dataDir_apply (c : Change) (s : Session) : (c.apply s).dataDir = s.dataDir := by
  cases c <;> rfl

theorem legacy_apply (c : Change) (s : Session) : (c.apply s).legacy = s.legacy := by
  cases c <;> rfl

theorem apply_comm {c d : Change} (h : ∀ n, c.Touches n → ¬d.Touches n)
    (hfiles : c.files? = none ∨ d.files? = none) (s : Session) :
    (∀ n, (d.apply (c.apply s)).table n = (c.apply (d.apply s)).table n) ∧
      (d.apply (c.apply s)).files = (c.apply (d.apply s)).files := by
  constructor
  · intro n
    by_cases hc : c.Touches n
    · rw [table_apply_of_not_touches (h n hc)]
      exact table_apply_of_touches hc _ _
    · rw [table_apply_of_not_touches hc]
      by_cases hd : d.Touches n
      · exact table_apply_of_touches hd _ _
      · rw [table_apply_of_not_touches hd, table_apply_of_not_touches hd,
          table_apply_of_not_touches hc]
  · simp only [files_apply]
    rcases hfiles with h | h
    · rw [h]
      rfl
    · rw [h]
      rfl

end Change

/-! ### The change that a statement makes -/

/-- The table that loading stores. -/
def loaded (s : Session) (headed : Bool) (name source : Text) : Except Error Table := do
  let t ← s.table name
  let feed ← Feed.ofPath s.files s.dataDir source
  (feed.readTable name t.schema headed).mapError (namingTable name)

theorem load_eq_map (s : Session) (headed : Bool) (name source : Text) :
    s.load headed name source =
      (s.loaded headed name source).map fun u => (u, s.store name u) := by
  unfold load loadFeed loaded
  cases s.table name with
  | error e => rfl
  | ok t =>
    cases Feed.ofPath s.files s.dataDir source with
    | error e => rfl
    | ok feed =>
      show (feed.readTable name t.schema headed).mapError (namingTable name) >>= _ =
        ((feed.readTable name t.schema headed).mapError (namingTable name)).map _
      cases (feed.readTable name t.schema headed).mapError (namingTable name) <;> rfl

/-- Binds a name to the table of an outcome. -/
def binding (name : Text) : Except Error Table → Change
  | .ok t => .bind name t
  | .error _ => .nothing

def assignment (target : Text) : Except Error Table → Change
  | .ok t => if t.rows.isEmpty then .unbind target else .bind target t
  | .error _ => .nothing

def change (s : Session) : Statement → Change
  | .define name types => binding name ((Kind.readAll types).map fun schema => { schema })
  | .load name source headed => binding name (s.loaded headed name source)
  | .save name target => .write (s.save name target).2.files
  | .remove name => .unbind name
  | .clear => .unbindAll
  | .assign target op => assignment target (s.evaluate op)
  | .print _ | .check .. | .exit => .nothing

/-- What a statement leaves is what its change makes of the session. -/
theorem run_snd (s : Session) (st : Statement) : (s.run st).2 = (s.change st).apply s := by
  cases st with
  | define name types =>
    show (s.settle ((s.define name types).map _)).2 = (binding name _).apply s
    rw [define]
    cases Kind.readAll types <;> rfl
  | load name source headed =>
    show (s.settle ((s.load headed name source).map _)).2 = (binding name _).apply s
    rw [load_eq_map]
    cases s.loaded headed name source <;> rfl
  | save name target => exact save_snd s name target
  | assign target op =>
    show (s.settle ((s.evaluate op).map (s.assign target))).2 =
      (assignment target (s.evaluate op)).apply s
    cases s.evaluate op with
    | error e => rfl
    | ok u =>
      dsimp only [Except.map, assign, assignment]
      split <;> rfl
  | print | check | remove | clear | exit => rfl

theorem mayBind_of_touches {s : Session} {st : Statement} {n : Text}
    (h : (s.change st).Touches n) : st.MayBind n := by
  have binds : ∀ {name : Text} {x : Except Error Table}, (binding name x).Touches n → n = name := by
    intro name x hx
    cases x with
    | error e => cases hx
    | ok t => exact hx
  cases st with
  | define name types => exact binds h
  | load name source headed => exact binds h
  | assign target op =>
    have ht : (assignment target (s.evaluate op)).Touches n := h
    cases hu : s.evaluate op with
    | error e =>
      rw [hu] at ht
      cases ht
    | ok u =>
      rw [hu, assignment] at ht
      split at ht <;> exact ht
  | remove name => exact h
  | clear => trivial
  | save | print | check | exit => cases h

theorem files?_change {s : Session} {st : Statement} (h : ¬st.WritesFiles) :
    (s.change st).files? = none := by
  have binds : ∀ (name : Text) (x : Except Error Table), (binding name x).files? = none := by
    intro name x
    cases x <;> rfl
  cases st with
  | define name types => exact binds name _
  | load name source headed => exact binds name _
  | assign target op =>
    show (assignment target (s.evaluate op)).files? = none
    cases s.evaluate op with
    | error e => rfl
    | ok u =>
      rw [assignment]
      split <;> rfl
  | save name target => exact absurd trivial h
  | print | check | remove | clear | exit => rfl

/-! ### What the answer and the change depend on -/

/-- The sessions are alike in everything that the statement looks at. -/
structure Alike (st : Statement) (s s' : Session) : Prop where
  dataDir : s'.dataDir = s.dataDir
  legacy : s'.legacy = s.legacy
  tables : ∀ n, st.LooksUp n → s'.table n = s.table n
  files : st.UsesFiles → s'.files = s.files

theorem find?_eq_toOption (s : Session) (name : Text) :
    s.tables.find? name = (s.table name).toOption := by
  rw [table]
  cases s.tables.find? name <;> rfl

theorem evaluate_congr {s s' : Session} {op : Operation} (hlegacy : s'.legacy = s.legacy)
    (h : ∀ n ∈ op.operands, s'.table n = s.table n) : s'.evaluate op = s.evaluate op := by
  cases op with
  | rows t c r v =>
    have ht := h t (by simp [Operation.operands])
    simp only [evaluate, rows, ht, hlegacy]
  | columns t cs =>
    have ht := h t (by simp [Operation.operands])
    simp only [evaluate, columns, ht]
  | product l r =>
    have hl := h l (by simp [Operation.operands])
    have hr := h r (by simp [Operation.operands])
    simp only [evaluate, product, hl, hr]
  | join l r ps outer =>
    have hl := h l (by simp [Operation.operands])
    have hr := h r (by simp [Operation.operands])
    simp only [evaluate, join, outerJoin, hl, hr]
  | naturalJoin l r outer =>
    have hl := h l (by simp [Operation.operands])
    have hr := h r (by simp [Operation.operands])
    simp only [evaluate, naturalJoin, hl, hr]
  | orderBy t c =>
    have ht := h t (by simp [Operation.operands])
    simp only [evaluate, orderBy, ht]

theorem loaded_congr {s s' : Session} {name source : Text} {headed : Bool}
    (h : Alike (.load name source headed) s s') :
    s'.loaded headed name source = s.loaded headed name source := by
  have ht := h.tables name rfl
  simp only [loaded, ht, h.files trivial, h.dataDir]

theorem opened_congr {s s' : Session} {name : Text} (target : Text)
    (hdir : s'.dataDir = s.dataDir) (ht : s'.table name = s.table name)
    (hfiles : s'.files = s.files) : s'.opened name target = s.opened name target := by
  unfold opened
  rw [hdir, ht, hfiles]

theorem save_congr {s s' : Session} {name : Text} (target : Text)
    (hdir : s'.dataDir = s.dataDir) (ht : s'.table name = s.table name)
    (hfiles : s'.files = s.files) :
    (s'.save name target).1 = (s.save name target).1 ∧
      (s'.save name target).2.files = (s.save name target).2.files := by
  unfold save
  rw [opened_congr target hdir ht hfiles, hfiles]
  cases s.opened name target with
  | error e => exact ⟨rfl, hfiles⟩
  | ok opened => exact ⟨rfl, rfl⟩

section
variable {s s' : Session} {st : Statement} (h : Alike st s s')
include h

theorem change_congr : s'.change st = s.change st := by
  cases st with
  | load name source headed => exact congrArg (binding name) (loaded_congr h)
  | save name target =>
    have hsave := save_congr target h.dataDir (h.tables name rfl) (h.files trivial)
    exact congrArg Change.write hsave.2
  | assign target op =>
    have heval := evaluate_congr h.legacy h.tables
    exact congrArg (assignment target) heval
  | define | print | check | remove | clear | exit => rfl

theorem answer_congr : (s'.run st).1 = (s.run st).1 := by
  cases st with
  | define name types =>
    show (s'.settle ((s'.define name types).map _)).1 = (s.settle ((s.define name types).map _)).1
    unfold define
    cases Kind.readAll types <;> rfl
  | load name source headed =>
    show (s'.settle ((s'.load headed name source).map _)).1 =
      (s.settle ((s.load headed name source).map _)).1
    rw [load_eq_map, load_eq_map, loaded_congr h]
    cases s.loaded headed name source <;> rfl
  | save name target =>
    have hsave := save_congr target h.dataDir (h.tables name rfl) (h.files trivial)
    exact congrArg (Except.map _) hsave.1
  | print name =>
    have ht := h.tables name rfl
    simp only [run, ht]
  | check t c u d =>
    have ht := h.tables t (Or.inl rfl)
    have hu := h.tables u (Or.inr rfl)
    simp only [run, check, ht, hu]
  | remove name =>
    have ht := h.tables name rfl
    simp only [run, find?_eq_toOption, ht]
  | assign target op =>
    have heval := evaluate_congr h.legacy h.tables
    show (s'.settle ((s'.evaluate op).map (s'.assign target))).1 =
      (s.settle ((s.evaluate op).map (s.assign target))).1
    rw [heval]
    cases s.evaluate op with
    | error e => rfl
    | ok u =>
      dsimp only [Except.map, assign]
      split <;> rfl
  | clear | exit => rfl

end

/-! ### Independent statements -/

theorem alike_of_independent {st₁ st₂ : Statement} (h : Command.Independent st₁ st₂) (s : Session) :
    Alike st₁ s (s.run st₂).2 := by
  rw [run_snd]
  refine ⟨Change.dataDir_apply _ s, Change.legacy_apply _ s, fun n hn => ?_, fun hu => ?_⟩
  · exact Change.table_apply_of_not_touches (fun ht => (h.right n (mayBind_of_touches ht)).1 hn) s
  · have hfiles := files?_change (s := s) fun hw => h.rightFiles hw hu
    rw [Change.files_apply, hfiles]
    rfl

/-- Independent statements answer the same in either order, and leave the same tables under the same
names and the same files. -/
theorem run_comm (s : Session) {st₁ st₂ : Statement} (h : Command.Independent st₁ st₂) :
    ((s.run st₂).2.run st₁).1 = (s.run st₁).1 ∧ ((s.run st₁).2.run st₂).1 = (s.run st₂).1 ∧
      (∀ n, ((s.run st₁).2.run st₂).2.table n = ((s.run st₂).2.run st₁).2.table n) ∧
        ((s.run st₁).2.run st₂).2.files = ((s.run st₂).2.run st₁).2.files := by
  have alike₁ := alike_of_independent h s
  have alike₂ := alike_of_independent h.symm s
  refine ⟨answer_congr alike₁, answer_congr alike₂, ?_⟩
  have hnames : ∀ n, (s.change st₁).Touches n → ¬(s.change st₂).Touches n := fun n h₁ h₂ =>
    (h.left n (mayBind_of_touches h₁)).2 (mayBind_of_touches h₂)
  have hfiles : (s.change st₁).files? = none ∨ (s.change st₂).files? = none := by
    by_cases hw : st₁.WritesFiles
    · exact Or.inr (files?_change fun hw' => h.leftFiles hw hw'.usesFiles)
    · exact Or.inl (files?_change hw)
  have left : ((s.run st₁).2.run st₂).2 = (s.change st₂).apply ((s.change st₁).apply s) := by
    rw [run_snd (s.run st₁).2 st₂, change_congr alike₂, run_snd]
  have right : ((s.run st₂).2.run st₁).2 = (s.change st₁).apply ((s.change st₂).apply s) := by
    rw [run_snd (s.run st₂).2 st₁, change_congr alike₁, run_snd]
  rw [left, right]
  exact Change.apply_comm hnames hfiles s

/-- A table is dropped while others are multiplied. -/
theorem run_comm_sample :
    let multiply := Statement.assign "e" (.product "a" "d")
    let drop := Statement.remove "b"
    Command.Independent multiply drop ∧
      ((Sample.session.run drop).2.run multiply).1 = (Sample.session.run multiply).1 := by
  have h : Command.Independent (.assign "e" (.product "a" "d")) (.remove "b") := by
    refine ⟨?_, ?_, fun hw => hw.elim, fun hw => hw.elim⟩
    · rintro n rfl
      have hne : ("e" : Text) ≠ "b" := by decide
      exact ⟨hne, hne⟩
    · rintro n rfl
      have hoperands : ("b" : Text) ∉ [("a" : Text), "d"] := by decide
      have hne : ("b" : Text) ≠ "e" := by decide
      exact ⟨hoperands, hne⟩
  exact ⟨h, (run_comm Sample.session h).1⟩

end Session

end TableAlgebra
