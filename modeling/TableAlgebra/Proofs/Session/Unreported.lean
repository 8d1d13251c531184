import TableAlgebra.Proofs.Algebra.Swapped
import TableAlgebra.Proofs.Session.Names
import TableAlgebra.Proofs.Table.Sorted
import TableAlgebra.Proofs.Unreported

/-!
# Commands that end in no answer

A command answers, or ends in an error that a session reports. There are four ways out of this: a
numeral of more than `maxDigits` digits in the command text, in a record that is loaded or in the
literal of a selection, and a path that holds what no path can hold. Nothing else goes wrong in a
reachable session.

* `Escapes s st`             the statement ends in an error that is not reported;
* `unreported_run`           what that takes, for each statement that a text can write;
* `execute_reported_iff`     a command is answered, or fails with a reported error, just if it is
                             none of the four.
-/

namespace TableAlgebra

/-! ### Columns -/

namespace Table

theorem reported_position (t : Table) {i : Int}
    (h : i.natAbs < Text.Numeral.bound Text.Numeral.maxDigits) : Reported (t.position i) := by
  unfold position
  split
  · exact failsWith_ok _
  · rw [Error.noColumn_eq, if_pos h]
    exact failsWith_error rfl

theorem reported_position_natCast {t : Table} {c : Nat} (h : c < t.width) :
    Reported (t.position c) := by
  rw [position_natCast h]
  exact failsWith_ok _

theorem reported_resolve (t : Table) {column : ColumnRef} (h : column.IsWritable) :
    Reported (t.resolve column) := by
  cases column with
  | index i => exact reported_position t h
  | name n =>
    show Reported (t.columnOf n)
    unfold columnOf
    split
    · exact failsWith_ok _
    · exact failsWith_error rfl

/-- A column that a reference means is one of the table. -/
theorem lt_width_of_resolve {t : Table} (h : t.HeaderFits) {column : ColumnRef} {c : Nat}
    (hc : t.resolve column = .ok c) : c < t.width := by
  cases column with
  | index i => exact (position_eq_ok.mp hc).2
  | name n =>
    change t.columnOf n = _ at hc
    unfold columnOf at hc
    split at hc
    · next d hd =>
      cases hc
      obtain ⟨hlt, -⟩ := List.idxOf?_eq_some_iff.mp hd
      exact Algebra.lt_width_of_getElem? h (List.getElem?_eq_getElem hlt)
    · cases hc

end Table

/-! ### Operators -/

namespace Algebra

theorem reported_comparator (symbol : Text) : Reported (Comparator.read symbol) := by
  unfold Comparator.read
  split
  all_goals first | exact failsWith_ok _ | exact failsWith_error rfl

section
variable {t : Table}

/-- A selection reads its literal last, when all the rest is well. -/
theorem unreported_select (h : t.RowsConform) {c : Nat} (hc : c < t.width) {symbol literal : Text}
    {legacy : Bool} : Unreported (select t c symbol literal legacy) ↔
      ∃ comparator, Comparator.read symbol = .ok comparator ∧ t.kind c = .numeric ∧
        Text.Numeral.IsLong literal.strip := by
  rw [select_eq h, Table.position_natCast hc]
  refine (reported_comparator symbol).bind_iff.trans (exists_congr fun comparator => ?_)
  exact and_congr_right fun _ => unreported_bind_pure.trans Cell.unreported_read

theorem reported_project {cs : List Nat} (h : ∀ c ∈ cs, c < t.width) :
    Reported (project t (cs.map Int.ofNat)) := by
  unfold project
  split
  · exact failsWith_ok _
  · refine FailsWith.map (FailsWith.mapM fun i hi => ?_)
    obtain ⟨c, hc, rfl⟩ := List.mem_map.mp hi
    exact Table.reported_position_natCast (h c hc)

/-- No column of a sound table mixes. -/
theorem reported_orderBy (sound : t.Sound) {c : Nat} (hc : c < t.width) :
    Reported (orderBy t c) := by
  have hm := Table.not_mixes_of_isWritable sound.isWritable c
  rw [Table.orderBy_of_not_mixes sound.rows hc hm]
  exact failsWith_ok _

theorem reported_unreferenced {r : Table} {c rc : Nat} (hc : c < t.width) (hrc : rc < r.width) :
    Reported (unreferenced t c r rc) :=
  (Table.reported_position_natCast hc).bind fun _ _ =>
    (Table.reported_position_natCast hrc).bind fun _ _ => failsWith_ok _

end

section
variable {l r : Table}

theorem reported_positionPairs {pairs : List (Int × Int)} (h : ∀ p ∈ pairs, InRange l r p) :
    Reported (positionPairs l r pairs) := by
  rw [positionPairs_of_inRange h]
  exact failsWith_ok _

theorem reported_naturalJoin (hl : l.HeaderFits) (hr : r.HeaderFits) (outer : Bool) :
    Reported (naturalJoin l r outer) := by
  by_cases h : namePairs l r = []
  · rw [naturalJoin_of_nil h]
    exact failsWith_ok _
  · rw [naturalJoin_of_inRange h (inRange_namePairs hl hr)]
    exact failsWith_ok _

end

end Algebra

/-! ### Sessions -/

namespace Session

open Command (Statement Operation)
open Storage (Feed)

/-- Some code point of the path, as the session sees it, is in no path. -/
def HasBarredPath (s : Session) (path : Text) : Prop :=
  ∃ p ∈ Storage.Path.resolve s.dataDir path, Storage.Path.IsBarred p

/-- The statement ends in an error that is not reported. -/
def Escapes (s : Session) : Statement → Prop
  | .load name source headed => ∃ t, s.table name = .ok t ∧
      (s.HasBarredPath source ∨ ∃ feed, Feed.ofPath s.files s.dataDir source = .ok feed ∧
        feed.HasLongNumber name t.schema headed)
  | .save name target => (∃ t, s.table name = .ok t) ∧ s.HasBarredPath target
  | .assign _ (.rows name column symbol literal) => ∃ t c comparator, s.table name = .ok t ∧
      t.resolve column = .ok c ∧ Comparator.read symbol = .ok comparator ∧
      t.kind c = .numeric ∧ Text.Numeral.IsLong literal.strip
  | _ => False

section
variable (s : Session)

theorem reported_table (name : Text) : Reported (s.table name) := by
  unfold table
  split
  · exact failsWith_ok _
  · exact failsWith_error rfl

theorem reported_define (name : Text) (types : List Text) : Reported (s.define name types) := by
  refine FailsWith.map (FailsWith.mapM fun tag _ => ?_)
  unfold Kind.read
  split
  · exact failsWith_ok _
  · exact failsWith_error rfl

theorem reported_tables (left right : Text) {f : Table → Table → Except Error Table}
    (hf : ∀ l r, s.table left = .ok l → s.table right = .ok r → Reported (f l r)) :
    Reported (s.table left >>= fun l => s.table right >>= fun r => f l r) :=
  (s.reported_table left).bind fun l hl => (s.reported_table right).bind fun r hr => hf l r hl hr

end

section
variable {l r : Table} {pairs : List (ColumnRef × ColumnRef)}

theorem reported_resolvePairs (l r : Table)
    (h : ∀ p ∈ pairs, p.1.IsWritable ∧ p.2.IsWritable) : Reported (resolvePairs l r pairs) :=
  FailsWith.mapM fun p hp => (l.reported_resolve (h p hp).1).bind fun _ _ =>
    (r.reported_resolve (h p hp).2).bind fun _ _ => failsWith_ok _

theorem inRange_of_resolvePairs (hl : l.HeaderFits) (hr : r.HeaderFits) {ps : List (Int × Int)}
    (h : resolvePairs l r pairs = .ok ps) : ∀ p ∈ ps, Algebra.InRange l r p := by
  intro p hp
  obtain ⟨refs, -, hrefs⟩ := exists_of_mem_mapM h hp
  obtain ⟨c, hc, hrefs⟩ := bind_eq_ok.mp hrefs
  obtain ⟨d, hd, hrefs⟩ := bind_eq_ok.mp hrefs
  cases hrefs
  have hleft := Table.lt_width_of_resolve hl hc
  have hright := Table.lt_width_of_resolve hr hd
  unfold Algebra.InRange
  omega

end

/-! ### Loading and saving -/

theorem unreported_load {s : Session} {headed : Bool} {name source : Text} :
    Unreported (s.load headed name source) ↔ s.Escapes (.load name source headed) := by
  have hpath : Unreported (Feed.ofPath s.files s.dataDir source) ↔ s.HasBarredPath source :=
    unreported_map.trans Storage.Path.unreported_canonical
  have hname : ∀ e, (namingTable name e).isReported = e.isReported := fun e => by cases e <;> rfl
  refine (s.reported_table name).bind_iff.trans (exists_congr fun t => and_congr_right fun _ => ?_)
  refine unreported_bind.trans (or_congr hpath (exists_congr fun feed => ?_))
  refine and_congr_right fun _ => ?_
  exact unreported_bind_pure.trans ((unreported_mapError hname).trans Feed.unreported_readTable)

theorem unreported_opened {s : Session} {name target : Text} :
    Unreported (s.opened name target) ↔ s.Escapes (.save name target) := by
  have hpath : Unreported (Storage.Path.canonical (Storage.Path.resolve s.dataDir target)) ↔
      s.HasBarredPath target := Storage.Path.unreported_canonical
  rw [Escapes, ← exists_and_right]
  refine (s.reported_table name).bind_iff.trans (exists_congr fun t => and_congr_right fun _ => ?_)
  refine (unreported_bind.trans (or_iff_left ?_)).trans hpath
  rintro ⟨file, -, hfile⟩
  split at hfile
  · cases unreported_error.mp hfile
  · obtain ⟨e, he, hr⟩ := unreported_bind_pure.mp hfile
    obtain ⟨_, _, rfl⟩ := mapError_eq_error.mp he
    cases hr

/-- Once the file is open, what can still go wrong is reported: a sound table can be encoded. -/
theorem unreported_save {s : Session} (sound : s.Sound) {name target : Text} :
    Unreported (s.save name target).1 ↔ s.Escapes (.save name target) := by
  rw [← unreported_opened]
  cases ho : s.opened name target with
  | error e =>
    rw [save, ho]
    exact unreported_error.trans unreported_error.symm
  | ok opened =>
    obtain ⟨t, l⟩ := opened
    obtain ⟨bytes, hbytes⟩ := exists_bytesOf (sound (opened_eq_ok.mp ho).1)
    rw [save_of_opened ho hbytes]
    refine iff_of_false (fun h => ?_) (not_unreported_ok _)
    obtain ⟨e, he, hr⟩ := h
    split at he
    · cases he
      cases hr
    · cases he

/-! ### Operations by name -/

section
variable {s : Session} (sound : s.Sound)
include sound

theorem unreported_rows {name : Text} {column : ColumnRef} (hcolumn : column.IsWritable)
    {symbol literal : Text} (target : Text) : Unreported (s.rows name column symbol literal) ↔
      s.Escapes (.assign target (.rows name column symbol literal)) := by
  constructor
  · intro h
    obtain ⟨t, ht, h⟩ := (s.reported_table name).bind_iff.mp h
    obtain ⟨c, hc, h⟩ := (t.reported_resolve hcolumn).bind_iff.mp h
    have hwidth := Table.lt_width_of_resolve (sound ht).header hc
    obtain ⟨comparator, hcomparator, hk, hl⟩ :=
      (Algebra.unreported_select (sound ht).rows hwidth).mp h
    exact ⟨t, c, comparator, ht, hc, hcomparator, hk, hl⟩
  · rintro ⟨t, c, comparator, ht, hc, hcomparator, hk, hl⟩
    have hwidth := Table.lt_width_of_resolve (sound ht).header hc
    refine (s.reported_table name).bind_iff.mpr ⟨t, ht, ?_⟩
    refine (t.reported_resolve hcolumn).bind_iff.mpr ⟨c, hc, ?_⟩
    exact (Algebra.unreported_select (sound ht).rows hwidth).mpr ⟨comparator, hcomparator, hk, hl⟩

theorem reported_columns (name : Text) {columns : List ColumnRef}
    (h : ∀ c ∈ columns, c.IsWritable) : Reported (s.columns name columns) := by
  refine (s.reported_table name).bind fun t ht => ?_
  refine (FailsWith.mapM fun c hc => t.reported_resolve (h c hc)).bind fun cs hcs => ?_
  refine Algebra.reported_project fun c hc => ?_
  obtain ⟨_, -, hresolve⟩ := exists_of_mem_mapM hcs hc
  exact Table.lt_width_of_resolve (sound ht).header hresolve

theorem reported_joins (left right : Text) {pairs : List (ColumnRef × ColumnRef)}
    (h : ∀ p ∈ pairs, p.1.IsWritable ∧ p.2.IsWritable) :
    Reported (s.join left right pairs) ∧ Reported (s.outerJoin left right pairs) := by
  have hpairs : ∀ l r ps, s.table left = .ok l → s.table right = .ok r →
      resolvePairs l r pairs = .ok ps → Reported (Algebra.positionPairs l r ps) :=
    fun l r ps hl hr hps => Algebra.reported_positionPairs
      (inRange_of_resolvePairs (sound hl).header (sound hr).header hps)
  constructor
  · exact s.reported_tables left right fun l r hl hr =>
      (reported_resolvePairs l r h).bind fun ps hps => (hpairs l r ps hl hr hps).map
  · exact s.reported_tables left right fun l r hl hr =>
      (reported_resolvePairs l r h).bind fun ps hps => (hpairs l r ps hl hr hps).map

theorem reported_sorted (name : Text) {column : ColumnRef} (h : column.IsWritable) :
    Reported (s.orderBy name column) :=
  (s.reported_table name).bind fun t ht => (t.reported_resolve h).bind fun _ hc =>
    Algebra.reported_orderBy (sound ht) (Table.lt_width_of_resolve (sound ht).header hc)

theorem reported_check (name : Text) {column : ColumnRef} (h : column.IsWritable) (ref : Text)
    {refColumn : ColumnRef} (href : refColumn.IsWritable) :
    Reported (s.check name column ref refColumn) :=
  s.reported_tables name ref fun t r ht hr =>
    (t.reported_resolve h).bind fun _ hc => (r.reported_resolve href).bind fun _ hrc =>
      Algebra.reported_unreferenced (Table.lt_width_of_resolve (sound ht).header hc)
        (Table.lt_width_of_resolve (sound hr).header hrc)

/-- Of the operations, only a selection reads a literal. -/
theorem unreported_evaluate {op : Operation} (hop : op.IsWritable) (target : Text) :
    Unreported (s.evaluate op) ↔ s.Escapes (.assign target op) := by
  have never : Reported (s.evaluate op) → (Unreported (s.evaluate op) ↔ False) :=
    fun h => iff_of_false (reported_iff.mp h) id
  cases op with
  | rows name column symbol literal => exact unreported_rows sound hop.2.1 target
  | columns name cs => exact never (reported_columns sound name hop.2)
  | product left right =>
    exact never <| s.reported_tables left right fun _ _ _ _ => failsWith_ok _
  | join left right pairs outer =>
    have hjoins := reported_joins sound left right hop.2.2.2
    refine never ?_
    cases outer with
    | true => exact hjoins.2
    | false => exact hjoins.1
  | naturalJoin left right outer =>
    exact never <| s.reported_tables left right fun l r hl hr =>
      Algebra.reported_naturalJoin (sound hl).header (sound hr).header outer
  | orderBy name column => exact never (reported_sorted sound name hop.2)

end

/-! ### Commands -/

theorem unreported_settle {s : Session} {x : Except Error (Reply × Session)} :
    Unreported (s.settle x).1 ↔ Unreported x := by
  cases x with
  | ok r => exact iff_of_false (not_unreported_ok _) (not_unreported_ok _)
  | error e => exact unreported_error.trans unreported_error.symm

theorem reported_checkMessage {missing : Table} (sound : missing.Sound) (source target : Text) :
    Reported (checkMessage source target missing) := by
  rw [checkMessage, sound.write_eq]
  split
  · exact failsWith_ok _
  · exact failsWith_ok _

theorem unreported_run {s : Session} (sound : s.Sound) {st : Statement} (hst : st.IsWritable) :
    Unreported (s.run st).1 ↔ s.Escapes st := by
  cases st with
  | define name types =>
    refine (unreported_settle.trans unreported_map).trans (iff_of_false ?_ id)
    exact reported_iff.mp (s.reported_define name types)
  | load name source headed =>
    exact (unreported_settle.trans unreported_map).trans unreported_load
  | save name target => exact unreported_map.trans (unreported_save sound)
  | print name =>
    refine iff_of_false (reported_iff.mp ?_) id
    refine (s.reported_table name).bind fun t ht => FailsWith.map ?_
    rw [(sound ht).write_eq]
    exact failsWith_ok _
  | check name c ref rc =>
    refine iff_of_false (reported_iff.mp ?_) id
    exact (reported_check sound name hst.2.1 ref hst.2.2.2).bind fun missing hmissing =>
      (reported_checkMessage (sound.check hmissing) _ _).map
  | remove name => exact iff_of_false (not_unreported_ok _) id
  | clear => exact iff_of_false (not_unreported_ok _) id
  | exit => exact iff_of_false (not_unreported_ok _) id
  | assign target op =>
    exact (unreported_settle.trans unreported_map).trans (unreported_evaluate sound hst.2 target)

theorem unreported_execute {s : Session} (sound : s.Sound) {command : Text} :
    Unreported (s.execute command).1 ↔ (∃ n, Command.HasLongNumeral n command) ∨
      ∃ st, Command.statement command = .ok st ∧ s.Escapes st := by
  cases hs : Command.statement command with
  | ok st =>
    rw [execute_of_ok hs, unreported_run sound (Command.isWritable_of_statement hs)]
    constructor
    · exact fun h => Or.inr ⟨st, rfl, h⟩
    · rintro (⟨n, hn⟩ | ⟨_, h, he⟩)
      · rw [Command.statement_eq_tooManyDigits.mpr hn] at hs
        cases hs
      · cases h
        exact he
  | error e =>
    rw [execute_of_error hs]
    refine unreported_error.trans ⟨fun he => Or.inl ?_, ?_⟩
    · rcases Command.statement_eq_error hs with ⟨f, p, rfl⟩ | ⟨n, hn, _⟩
      · cases he
      · exact ⟨n, hn⟩
    · rintro (⟨n, hn⟩ | ⟨_, h, _⟩)
      · cases hs.symm.trans (Command.statement_eq_tooManyDigits.mpr hn)
        rfl
      · cases h

/-- A command is answered or fails with a reported error, unless a numeral is too long or a path is
none. -/
theorem execute_reported_iff {s : Session} (reached : s.Reachable) (command : Text) :
    (∀ e, (s.execute command).1 = .error e → e.isReported = true) ↔
      (∀ n, ¬Command.HasLongNumeral n command) ∧
        ∀ st, Command.statement command = .ok st → ¬s.Escapes st := by
  have hiff : Reported (s.execute command).1 ↔ _ :=
    reported_iff.trans (not_congr (unreported_execute reached.sound))
  refine hiff.trans (not_or.trans (and_congr not_exists ?_))
  exact not_exists.trans (forall_congr' fun _ => not_and)

theorem execute_reported_iff_sample :
    (∀ e, (Sample.session.execute "print c").1 = .error e → e.isReported = true) ∧
      ¬∀ e, (Sample.session.execute "save c 'x\x00'").1 = .error e → e.isReported = true := by
  have hprint : Command.statement "print c" = .ok (.print "c") :=
    eq_ok_of_toOption (by decide +kernel)
  have hsave : Command.statement "save c 'x\x00'" = .ok (.save "c" "x\x00") :=
    eq_ok_of_toOption (by decide +kernel)
  constructor
  · refine (execute_reported_iff Sample.reachable_session _).mpr ⟨fun n hn => ?_, fun st hst => ?_⟩
    · rw [Command.statement_eq_tooManyDigits.mpr hn] at hprint
      cases hprint
    · cases hst.symm.trans hprint
      exact id
  · intro h
    refine ((execute_reported_iff Sample.reachable_session _).mp h).2 _ hsave ?_
    exact ⟨⟨_, Sample.table_joined⟩, .char '\x00', by decide +kernel, Or.inl rfl⟩

/-- A numeral alone is no command, and one that is too long is not even refused as such. -/
theorem not_execute_reported :
    ¬∀ (s : Session) (command : Text), s.Reachable →
      ∀ e, (s.execute command).1 = .error e → e.isReported = true := by
  intro h
  have hn := Command.hasLongNumeral_replicate (n := 4301) (by decide)
  have he := execute_of_error (s := {}) (Command.statement_eq_tooManyDigits.mpr hn)
  have := h {} _ (.start "." false {}) _ (congrArg Prod.fst he)
  cases this

end Session

end TableAlgebra
