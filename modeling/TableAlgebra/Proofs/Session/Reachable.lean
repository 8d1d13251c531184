import TableAlgebra.Proofs.Algebra.Admission
import TableAlgebra.Proofs.Algebra.Sound
import TableAlgebra.Proofs.Command.Statements
import TableAlgebra.Proofs.Session.Effect

/-!
# Reachable sessions

A session starts without tables and carries out commands; whoever shares its files may change them
in between. Every table that it then holds is sound (`Table.Sound`), whatever the commands and the
files are.

* `Reachable`           the sessions there can be;
* `Session.Sound`       every table of the session is sound;
* `Effect.sound`        a statement that answers keeps the session sound;
* `Reachable.sound`     every reachable session is sound;
* `tables_sound`        the invariant in full, with what it means for the operators.
-/

namespace TableAlgebra.Session

open TableAlgebra.Algebra (gather)
open Command (Statement Operation)

inductive Reachable : Session → Prop
  | start (dataDir : Text) (legacy : Bool) (files : Storage.Files) :
      Reachable { dataDir, legacy, files }
  | execute {s : Session} (reached : Reachable s) (command : Text) :
      Reachable (s.execute command).2
  | change {s : Session} (reached : Reachable s) (files : Storage.Files) :
      Reachable { s with files }

/-- Every table of the session is sound. -/
def Sound (s : Session) : Prop := ∀ ⦃name t⦄, s.table name = .ok t → t.Sound

theorem bytesOf_eq_ok {t : Table} (h : t.Sound) {bytes : ByteArray} :
    bytesOf t = .ok bytes ↔ Text.Utf8.encode t.written = .ok bytes := by
  rw [bytesOf, h.write_eq]
  exact mapError_eq_ok

theorem exists_bytesOf {t : Table} (h : t.Sound) : ∃ bytes, bytesOf t = .ok bytes :=
  h.exists_bytes.imp fun _ hb => (bytesOf_eq_ok h).mpr hb.1

section
variable {s : Session} (h : s.Sound)
include h

/-! ### Changing what is bound -/

theorem Sound.of_tables {s' : Session} (ht : s'.tables = s.tables) : s'.Sound :=
  fun name _ hu => h ((table_eq_table (congrArg (·.find? name) ht)).symm.trans hu)

theorem Sound.store {t : Table} (ht : t.Sound) (name : Text) : (s.store name t).Sound := by
  intro m u hu
  rcases eq_or_table_of_store hu with ⟨-, rfl⟩ | hu
  · exact ht
  · exact h hu

theorem Sound.remove (name : Text) : (s.remove name).Sound := fun _ _ hu => h (table_of_remove hu)

/-! ### The results of operations -/

theorem Sound.evaluate {op : Operation} {u : Table} (hu : s.evaluate op = .ok u) :
    u.rows = [] ∨ u.Sound := by
  cases op with
  | rows name c symbol literal =>
    obtain ⟨t, ht, hu⟩ := bind_eq_ok.mp hu
    obtain ⟨_, _, hu⟩ := bind_eq_ok.mp hu
    exact Or.inr (Algebra.sound_select (h ht) hu)
  | columns name cs =>
    obtain ⟨t, ht, hu⟩ := bind_eq_ok.mp hu
    obtain ⟨_, _, hu⟩ := bind_eq_ok.mp hu
    exact Algebra.sound_project (h ht) hu
  | product left right =>
    obtain ⟨l, hl, hu⟩ := bind_eq_ok.mp hu
    obtain ⟨r, hr, hu⟩ := bind_eq_ok.mp hu
    cases hu
    exact Algebra.sound_product (h hl) (h hr)
  | join left right pairs outer =>
    cases outer with
    | true =>
      obtain ⟨l, hl, hu⟩ := bind_eq_ok.mp hu
      obtain ⟨r, hr, hu⟩ := bind_eq_ok.mp hu
      obtain ⟨_, _, hu⟩ := bind_eq_ok.mp hu
      exact Or.inr (Algebra.sound_outerJoin (h hl) (h hr) hu)
    | false =>
      obtain ⟨l, hl, hu⟩ := bind_eq_ok.mp hu
      obtain ⟨r, hr, hu⟩ := bind_eq_ok.mp hu
      obtain ⟨_, _, hu⟩ := bind_eq_ok.mp hu
      exact Algebra.sound_join (h hl) (h hr) hu
  | naturalJoin left right outer =>
    obtain ⟨l, hl, hu⟩ := bind_eq_ok.mp hu
    obtain ⟨r, hr, hu⟩ := bind_eq_ok.mp hu
    exact Algebra.sound_naturalJoin (h hl) (h hr) hu
  | orderBy name c =>
    obtain ⟨t, ht, hu⟩ := bind_eq_ok.mp hu
    obtain ⟨_, _, hu⟩ := bind_eq_ok.mp hu
    exact Or.inr (Algebra.sound_orderBy (h ht) hu)

theorem Sound.check {name ref : Text} {c rc : ColumnRef} {u : Table}
    (hu : s.check name c ref rc = .ok u) : u.Sound := by
  obtain ⟨t, ht, hu⟩ := bind_eq_ok.mp hu
  obtain ⟨r, _, hu⟩ := bind_eq_ok.mp hu
  obtain ⟨i, _, hu⟩ := bind_eq_ok.mp hu
  obtain ⟨j, _, hu⟩ := bind_eq_ok.mp hu
  obtain ⟨i', _, hu⟩ := bind_eq_ok.mp hu
  obtain ⟨j', _, hu⟩ := bind_eq_ok.mp hu
  cases hu
  exact Algebra.sound_keep (h ht) _

/-! ### Steps -/

/-- A definition needs a type tag, and a load keeps the schema, so there is always a column. -/
theorem Effect.sound {st : Statement} {s' : Session} (he : Effect s st s') (ht : st.HasTypes) :
    s'.Sound := by
  cases he with
  | @define name types schema hschema =>
    refine h.store (Table.sound_empty fun e => ht ?_) name
    rw [← List.length_eq_zero_iff, ← length_of_mapM hschema, e, List.length_nil]
  | load bound opened read =>
    have hnone := (Storage.Feed.readTable_eq_ok.mp read).1
    exact h.store (Storage.Feed.sound_readTable (h bound).columns
      (Storage.Feed.isField_of_ofPath opened hnone) read) _
  | save saved =>
    obtain ⟨_, _, _, _, _, _, hs⟩ := save_eq_ok.mp saved
    rw [hs]
    exact h
  | print | check | exit => exact h
  | remove name => exact h.remove name
  | clear => exact fun _ _ hu => nomatch hu
  | store result rows => exact h.store ((h.evaluate result).resolve_left rows) _
  | drop => exact h.remove _

/-- A sound session can write all of its tables, so what fails leaves it alone unless a file does
not take what is written. -/
theorem Sound.run_error {st : Statement} {e : Error} {s' : Session}
    (hr : s.run st = (.error e, s')) : s' = s ∨ CutShort s st e s' := by
  rcases run_eq_error hr with hs | ⟨name, target, rfl, hsave⟩
  · exact Or.inl hs
  · rcases save_eq_error hsave with ⟨-, hs⟩ | ⟨t, l, ho, hb | ⟨bytes, fault, hb, hw, hs, rfl⟩⟩
    · exact Or.inl hs
    · obtain ⟨bytes, hbytes⟩ := exists_bytesOf (h (opened_eq_ok.mp ho).1)
      rw [hbytes] at hb
      cases hb
    · rw [hs]
      exact Or.inr (.save ho hb hw)

theorem Sound.execute_error {command : Text} {e : Error} {s' : Session}
    (hr : s.execute command = (.error e, s')) :
    s' = s ∨ ∃ st, Command.statement command = .ok st ∧ CutShort s st e s' := by
  cases hs : Command.statement command with
  | error e' =>
    rw [execute_of_error hs] at hr
    cases hr
    exact Or.inl rfl
  | ok st =>
    rw [execute_of_ok hs] at hr
    exact (h.run_error hr).imp id fun hcut => ⟨st, rfl, hcut⟩

theorem Sound.execute (command : Text) : (s.execute command).2.Sound := by
  cases hs : Command.statement command with
  | error e =>
    rw [execute_of_error hs]
    exact h
  | ok st =>
    rw [execute_of_ok hs]
    cases hr : s.run st with
    | mk outcome s' =>
      cases outcome with
      | error e =>
        rcases h.run_error hr with rfl | hcut
        · exact h
        · exact h.of_tables hcut.tables_eq
      | ok reply => exact (effect_of_run hr).sound h (Command.hasTypes_of_statement hs)

end

theorem Reachable.sound {s : Session} (h : s.Reachable) : s.Sound := by
  induction h with
  | start => exact fun _ _ hu => nomatch hu
  | execute _ command ih => exact ih.execute command
  | change _ _ ih => exact ih

theorem Reachable.run {s : Session} (h : s.Reachable) (commands : List Text) :
    (commands.foldl (fun s command => (s.execute command).2) s).Reachable := by
  induction commands generalizing s with
  | nil => exact h
  | cons command commands ih => exact ih (h.execute command)

/-! ### A session with tables -/

namespace Sample

def files : Storage.Files :=
  { nodes := [(["a.csv"], .file "id,name\n1,ant\n3,bee\n".toUTF8),
      (["b.csv"], .file "id,legs\n1,6\n2,4\n".toUTF8)] }

/-- Two tables are loaded from files. Their full outer join is stored, and a column of it. -/
def commands : List Text :=
  ["define a (int, string)", "load headed a from 'a.csv'", "define b (int, int)",
    "load headed b from 'b.csv'", "c = outer naturaljoin(a, b)", "d = columns(c, name)"]

def session : Session := commands.foldl (fun s command => (s.execute command).2) { files }

def joined : Table :=
  { schema := [.numeric, .text, .numeric, .numeric], header := ["id", "name", "id", "legs"],
    rows := [[.numeric (some 1), .text (some "ant"), .numeric (some 1), .numeric (some 6)],
      [.numeric (some 3), .text (some "bee"), .numeric none, .numeric none],
      [.numeric none, .text none, .numeric (some 2), .numeric (some 4)]] }

def names : Table :=
  { schema := [.text], header := ["name"],
    rows := [[.text (some "ant")], [.text (some "bee")], [.text none]] }

theorem reachable_session : session.Reachable := (Reachable.start "." false files).run commands

theorem isOrdinary_session (l : Storage.Location) : session.files.isOrdinary l = true := by
  have hquotas : session.files.quotas = [] := by decide +kernel
  rw [Storage.Files.isOrdinary, hquotas]
  rfl

theorem find?_tables_session :
    session.tables.find? "c" = some joined ∧ session.tables.find? "d" = some names := by
  decide +kernel

theorem table_joined : session.table "c" = .ok joined := table_eq_ok.mpr find?_tables_session.1

theorem table_names : session.table "d" = .ok names := table_eq_ok.mpr find?_tables_session.2

end Sample

/-! ### The invariant -/

/-- What every reachable session holds: sound tables, of which no operator has a row turned away. -/
theorem Reachable.tables_sound {s : Session} (h : s.Reachable) :
    (∀ name t, s.table name = .ok t → t.Sound) ∧
    (∀ name t, s.table name = .ok t →
      (∀ c symbol literal legacy, Algebra.select t c symbol literal legacy =
        Algebra.selectBy gather t c symbol literal legacy) ∧
      (∀ cs, Algebra.project t cs = Algebra.projectBy gather t cs) ∧
      (∀ c u rc, Algebra.unreferenced t c u rc = Algebra.unreferencedBy gather t c u rc)) ∧
    (∀ left right l r, s.table left = .ok l → s.table right = .ok r →
      Algebra.product l r = Algebra.productBy gather l r ∧
      (∀ pairs, Algebra.join l r pairs = Algebra.joinBy gather l r pairs) ∧
      (∀ pairs, Algebra.outerJoin l r pairs = Algebra.outerJoinBy gather l r pairs) ∧
      (∀ outer, Algebra.naturalJoin l r outer = Algebra.naturalJoinBy gather l r outer)) := by
  have rows : ∀ {name t}, s.table name = .ok t → t.RowsConform := fun ht => (h.sound ht).rows
  refine ⟨fun _ _ ht => h.sound ht, fun _ t ht => ?_, fun _ _ l r hl hr => ?_⟩
  · exact ⟨Algebra.select_eq_gather (rows ht), Algebra.project_eq_gather (rows ht),
      Algebra.unreferenced_eq_gather (rows ht)⟩
  · exact ⟨Algebra.product_eq_gather (rows hl) (rows hr),
      Algebra.join_eq_gather (rows hl) (rows hr), Algebra.outerJoin_eq_gather (rows hl) (rows hr),
      Algebra.naturalJoin_eq_gather (rows hl) (rows hr)⟩

theorem tables_sound_sample :
    Sample.session.Reachable ∧ Sample.session.table "c" = .ok Sample.joined ∧
      Sample.session.table "d" = .ok Sample.names ∧ Sample.joined.Sound ∧
      Algebra.project Sample.joined [1] = Algebra.projectBy gather Sample.joined [1] ∧
      Algebra.product Sample.joined Sample.names =
        Algebra.productBy gather Sample.joined Sample.names := by
  obtain ⟨sound, one, two⟩ := Sample.reachable_session.tables_sound
  exact ⟨Sample.reachable_session, Sample.table_joined, Sample.table_names,
    sound _ _ Sample.table_joined, (one _ _ Sample.table_joined).2.1 [1],
    (two _ _ _ _ Sample.table_joined Sample.table_names).1⟩

end TableAlgebra.Session
