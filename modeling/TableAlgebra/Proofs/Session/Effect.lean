import TableAlgebra.Proofs.Storage.Files
import TableAlgebra.Proofs.Storage.Loaded
import TableAlgebra.Session.Execute

/-!
# What a statement does to a session

Everything that carrying out a statement can do is said here once; what is true of sessions is
derived from it.

* `opened_eq_ok`    when a file is opened for a table;
* `save_eq_ok`      when a table is saved, and what the session is then;
* `save_eq_error`   why it is not;
* `Effect s st s'`  the session that the statement leads to when it answers;
* `effect_of_run`   there is no other;
* `CutShort s st e s'`  the statement saves to a file that keeps no more than a beginning;
* `run_eq_error`    a statement that fails leaves the session alone, unless it saves.
-/

namespace TableAlgebra.Session

open Command (Statement Operation)
open Storage (Feed Files Location)

/-! ### Bindings -/

theorem table_eq_table {s s' : Session} {name : Text}
    (h : s'.tables.find? name = s.tables.find? name) : s'.table name = s.table name := by
  rw [table, table, h]

theorem table_eq_error {s : Session} {name : Text} :
    s.table name = .error (.noSuchTable name) ↔ s.tables.find? name = none := by
  rw [table]
  cases s.tables.find? name with
  | none => exact ⟨fun _ => rfl, fun _ => rfl⟩
  | some t => exact ⟨fun h => (nomatch h), fun h => (nomatch h)⟩

theorem table_store_of_ne {s : Session} {m n : Text} (h : m ≠ n) (t : Table) :
    (s.store n t).table m = s.table m := table_eq_table (Catalog.find?_bind_of_ne h _ _)

theorem table_remove_of_ne {s : Session} {m n : Text} (h : m ≠ n) :
    (s.remove n).table m = s.table m := table_eq_table (Catalog.find?_unbind_of_ne h _)

theorem table_remove_self (s : Session) (name : Text) :
    (s.remove name).table name = .error (.noSuchTable name) :=
  table_eq_error.mpr (Catalog.find?_unbind_self ..)

/-- What a session binds after one binding is the new table, or what it has bound before. -/
theorem eq_or_table_of_store {s : Session} {m n : Text} {t u : Table}
    (h : (s.store n t).table m = .ok u) : (m = n ∧ u = t) ∨ s.table m = .ok u := by
  by_cases hm : m = n
  · rw [hm, table_store_self] at h
    cases h
    exact Or.inl ⟨hm, rfl⟩
  · rw [table_store_of_ne hm] at h
    exact Or.inr h

theorem table_of_remove {s : Session} {m n : Text} {u : Table}
    (h : (s.remove n).table m = .ok u) : s.table m = .ok u := by
  by_cases hm : m = n
  · rw [hm, table_remove_self] at h
    cases h
  · rwa [table_remove_of_ne hm] at h

/-! ### Saving -/

def fileOf (s : Session) (path : Text) : Except Error Text :=
  Storage.Path.canonical (Storage.Path.resolve s.dataDir path)

theorem opened_eq_ok {s : Session} {name target : Text} {t : Table} {l : Location} :
    s.opened name target = .ok (t, l) ↔ s.table name = .ok t ∧ ∃ file,
      s.fileOf target = .ok file ∧ s.files.isReadOnly file = false ∧
        s.files.target file = .ok l := by
  unfold opened fileOf
  constructor
  · intro h
    obtain ⟨u, hu, h⟩ := bind_eq_ok.mp h
    obtain ⟨file, hfile, h⟩ := bind_eq_ok.mp h
    split at h
    · cases h
    · next hro =>
      obtain ⟨m, hm, h⟩ := bind_eq_ok.mp h
      cases h
      exact ⟨hu, file, hfile, Bool.not_eq_true _ ▸ hro, mapError_eq_ok.mp hm⟩
  · rintro ⟨ht, file, hfile, hro, hl⟩
    refine bind_eq_ok.mpr ⟨t, ht, bind_eq_ok.mpr ⟨file, hfile, ?_⟩⟩
    rw [hro, if_neg Bool.false_ne_true]
    exact bind_eq_ok.mpr ⟨l, mapError_eq_ok.mpr hl, rfl⟩

theorem save_of_opened {s : Session} {name target : Text} {t : Table} {l : Location}
    {bytes : ByteArray} (h : s.opened name target = .ok (t, l)) (hb : bytesOf t = .ok bytes) :
    s.save name target =
      (match (s.files.write l bytes).1 with
        | some fault => .error (.save (.cutShort target fault))
        | none => .ok (), { s with files := (s.files.write l bytes).2 }) := by
  rw [save, h]
  dsimp only
  rw [hb]
  simp only [Except.toOption, Option.getD_some]
  cases (s.files.write l bytes).1 <;> rfl

theorem save_eq_ok {s s' : Session} {name target : Text} :
    s.save name target = (.ok (), s') ↔ ∃ t l bytes, s.opened name target = .ok (t, l) ∧
      bytesOf t = .ok bytes ∧ s.files.write l bytes = (none, s'.files) ∧
      s' = { s with files := s'.files } := by
  constructor
  · intro h
    cases ho : s.opened name target with
    | error e =>
      rw [save, ho] at h
      cases h
    | ok opened =>
      obtain ⟨t, l⟩ := opened
      cases hb : bytesOf t with
      | error e =>
        rw [save, ho] at h
        dsimp only at h
        rw [hb] at h
        cases h
      | ok bytes =>
        rw [save_of_opened ho hb] at h
        cases hw : s.files.write l bytes with
        | mk fault? files =>
          rw [hw] at h
          cases fault? with
          | some fault => cases h
          | none =>
            cases h
            exact ⟨t, l, bytes, rfl, hb, hw, rfl⟩
  · rintro ⟨t, l, bytes, ho, hb, hw, hs⟩
    rw [save_of_opened ho hb, hw, hs]

/-- A save that fails has not come to open the file, or the table has no bytes, or they have been cut
short. -/
theorem save_eq_error {s s' : Session} {name target : Text} {e : Error}
    (h : s.save name target = (.error e, s')) :
    (s.opened name target = .error e ∧ s' = s) ∨ ∃ t l, s.opened name target = .ok (t, l) ∧
      (bytesOf t = .error e ∨ ∃ bytes fault, bytesOf t = .ok bytes ∧
        s.files.write l bytes = (some fault, s'.files) ∧ s' = { s with files := s'.files } ∧
        e = .save (.cutShort target fault)) := by
  cases ho : s.opened name target with
  | error e' =>
    rw [save, ho] at h
    cases h
    exact Or.inl ⟨rfl, rfl⟩
  | ok opened =>
    obtain ⟨t, l⟩ := opened
    refine Or.inr ⟨t, l, rfl, ?_⟩
    cases hb : bytesOf t with
    | error e' =>
      rw [save, ho] at h
      dsimp only at h
      rw [hb] at h
      cases h
      exact Or.inl rfl
    | ok bytes =>
      rw [save_of_opened ho hb] at h
      cases hw : s.files.write l bytes with
      | mk fault? files =>
        rw [hw] at h
        cases fault? with
        | none => cases h
        | some fault =>
          cases h
          exact Or.inr ⟨bytes, fault, rfl, hw, rfl, rfl⟩

/-- Saving touches nothing but files. -/
theorem save_snd (s : Session) (name target : Text) :
    (s.save name target).2 = { s with files := (s.save name target).2.files } := by
  unfold save
  split <;> rfl

/-! ### Loading -/

theorem loadFeed_eq_ok {s s' : Session} {headed : Bool} {name : Text} {x : Except Error Feed}
    {u : Table} :
    s.loadFeed headed name x = .ok (u, s') ↔
      ∃ t feed, s.table name = .ok t ∧ x = .ok feed ∧
        feed.readTable name t.schema headed = .ok u ∧ s' = s.store name u := by
  constructor
  · intro h
    obtain ⟨t, ht, h⟩ := bind_eq_ok.mp h
    obtain ⟨feed, hfeed, h⟩ := bind_eq_ok.mp h
    obtain ⟨u', hu, h⟩ := bind_eq_ok.mp h
    cases h
    exact ⟨t, feed, ht, hfeed, mapError_eq_ok.mp hu, rfl⟩
  · rintro ⟨t, feed, ht, hfeed, hu, rfl⟩
    refine bind_eq_ok.mpr ⟨t, ht, bind_eq_ok.mpr ⟨feed, hfeed, bind_eq_ok.mpr ⟨u, ?_, rfl⟩⟩⟩
    exact mapError_eq_ok.mpr hu

theorem loadFeed_eq_error {s : Session} {headed : Bool} {name : Text} {t : Table} {feed : Feed}
    (h : s.table name = .ok t) {e : Error} :
    s.loadFeed headed name (.ok feed) = .error e ↔
      ∃ e', feed.readTable name t.schema headed = .error e' ∧ namingTable name e' = e := by
  rw [loadFeed, h, ← mapError_eq_error]
  show ((feed.readTable name t.schema headed).mapError _ >>= _) = _ ↔ _
  rw [bind_eq_error]
  exact or_iff_left fun ⟨_, _, he⟩ => nomatch he

theorem load_eq_ok {s s' : Session} {headed : Bool} {name source : Text} {u : Table} :
    s.load headed name source = .ok (u, s') ↔
      ∃ t feed, s.table name = .ok t ∧ Feed.ofPath s.files s.dataDir source = .ok feed ∧
        feed.readTable name t.schema headed = .ok u ∧ s' = s.store name u := loadFeed_eq_ok

/-! ### Statements -/

inductive Effect (s : Session) : Statement → Session → Prop
  | define {name : Text} {types : List Text} {schema : Schema}
      (known : Kind.readAll types = .ok schema) :
      Effect s (.define name types) (s.store name { schema })
  | load {name source : Text} {headed : Bool} {t u : Table} {feed : Feed}
      (bound : s.table name = .ok t) (opened : Feed.ofPath s.files s.dataDir source = .ok feed)
      (read : feed.readTable name t.schema headed = .ok u) :
      Effect s (.load name source headed) (s.store name u)
  | save {name target : Text} {s' : Session} (saved : s.save name target = (.ok (), s')) :
      Effect s (.save name target) s'
  | print (name : Text) : Effect s (.print name) s
  | check (name : Text) (c : ColumnRef) (ref : Text) (rc : ColumnRef) :
      Effect s (.check name c ref rc) s
  | remove (name : Text) : Effect s (.remove name) (s.remove name)
  | clear : Effect s .clear s.clear
  | exit : Effect s .exit s
  | store {target : Text} {op : Operation} {u : Table} (result : s.evaluate op = .ok u)
      (rows : u.rows ≠ []) : Effect s (.assign target op) (s.store target u)
  | drop {target : Text} {op : Operation} {u : Table} (result : s.evaluate op = .ok u)
      (rows : u.rows = []) : Effect s (.assign target op) (s.remove target)

/-- A save ends in an error although the file has been opened: the bytes have been cut short. -/
inductive CutShort (s : Session) : Statement → Error → Session → Prop
  | save {name target : Text} {t : Table} {l : Location} {bytes : ByteArray} {files : Files}
      {fault : Storage.DeviceFault} (opened : s.opened name target = .ok (t, l))
      (encoded : bytesOf t = .ok bytes) (cut : s.files.write l bytes = (some fault, files)) :
      CutShort s (.save name target) (.save (.cutShort target fault)) { s with files }

theorem CutShort.tables_eq {s s' : Session} {st : Statement} {e : Error} (h : CutShort s st e s') :
    s'.tables = s.tables := by
  cases h
  rfl

theorem CutShort.isReported {s s' : Session} {st : Statement} {e : Error}
    (h : CutShort s st e s') : e.isReported = true := by
  cases h
  rfl

theorem settle_eq_ok {s s' : Session} {x : Except Error (Reply × Session)} {reply : Reply} :
    s.settle x = (.ok reply, s') ↔ x = .ok (reply, s') := by
  cases x with
  | error e => exact ⟨fun h => (nomatch h), fun h => (nomatch h)⟩
  | ok r =>
    constructor
    · intro h
      cases h
      rfl
    · intro h
      cases h
      rfl

theorem settle_eq_error {s s' : Session} {x : Except Error (Reply × Session)} {e : Error} :
    s.settle x = (.error e, s') ↔ x = .error e ∧ s' = s := by
  cases x with
  | ok r => exact ⟨fun h => (nomatch h), fun h => (nomatch h.1)⟩
  | error e' =>
    constructor
    · intro h
      cases h
      exact ⟨rfl, rfl⟩
    · rintro ⟨h, rfl⟩
      cases h
      rfl

theorem effect_of_run {s s' : Session} {st : Statement} {reply : Reply}
    (h : s.run st = (.ok reply, s')) : Effect s st s' := by
  cases st with
  | define name types =>
    obtain ⟨⟨t, s₁⟩, hd, h⟩ := map_eq_ok.mp (settle_eq_ok.mp h)
    obtain ⟨schema, hschema, hd⟩ := map_eq_ok.mp hd
    cases hd
    cases h
    exact .define hschema
  | load name source headed =>
    obtain ⟨⟨u, s₁⟩, hl, h⟩ := map_eq_ok.mp (settle_eq_ok.mp h)
    obtain ⟨t, feed, ht, hfeed, hu, rfl⟩ := load_eq_ok.mp hl
    cases h
    exact .load ht hfeed hu
  | save name target =>
    obtain ⟨hr, hs⟩ := Prod.mk.inj h
    obtain ⟨⟨⟩, hr, _⟩ := map_eq_ok.mp hr
    exact .save (Prod.ext hr hs)
  | print name =>
    cases congrArg Prod.snd h
    exact .print name
  | check name c ref rc =>
    cases congrArg Prod.snd h
    exact .check name c ref rc
  | remove name =>
    cases h
    exact .remove name
  | clear =>
    cases h
    exact .clear
  | exit =>
    cases h
    exact .exit
  | assign target op =>
    obtain ⟨u, hu, h⟩ := map_eq_ok.mp (settle_eq_ok.mp h)
    unfold assign at h
    split at h
    · next hrows =>
      cases h
      exact .drop hu (List.isEmpty_iff.mp hrows)
    · next hrows =>
      cases h
      exact .store hu fun e => hrows (List.isEmpty_iff.mpr e)

theorem run_eq_error {s s' : Session} {st : Statement} {e : Error}
    (h : s.run st = (.error e, s')) :
    s' = s ∨ ∃ name target, st = .save name target ∧ s.save name target = (.error e, s') := by
  cases st with
  | define name types => exact Or.inl (settle_eq_error.mp h).2
  | load name source headed => exact Or.inl (settle_eq_error.mp h).2
  | save name target =>
    obtain ⟨hr, hs⟩ := Prod.mk.inj h
    exact Or.inr ⟨name, target, rfl, Prod.ext (map_eq_error.mp hr) hs⟩
  | print name => exact Or.inl (congrArg Prod.snd h).symm
  | check name c ref rc => exact Or.inl (congrArg Prod.snd h).symm
  | remove name => cases h
  | clear => cases h
  | exit => cases h
  | assign target op => exact Or.inl (settle_eq_error.mp h).2

end TableAlgebra.Session
