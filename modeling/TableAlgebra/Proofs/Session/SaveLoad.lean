import TableAlgebra.Proofs.Session.Reachable
import TableAlgebra.Proofs.Storage.Written

/-!
# Saving and loading a table

A table that was saved to an ordinary file is loaded from the same path with its null texts filled
in; if one of its null cells is a number, it cannot be loaded, and stays as it is.

* `ofPath_of_save`     what the path holds after the table was saved to it;
* `load_of_save`       loading there answers what reading the written table answers;
* `load_after_save`    when that succeeds, with which table, and what is left when it does not.
-/

namespace TableAlgebra.Session

open Storage (Feed)

/-- The file that a path leads to keeps whatever is written to it. -/
def IsOrdinary (s : Session) (path : Text) : Prop :=
  ∀ file l, s.fileOf path = .ok file → s.files.target file = .ok l → s.files.isOrdinary l = true

theorem ofPath_of_save {s s' : Session} {name target : Text} {t : Table}
    (ht : s.table name = .ok t) (sound : t.Sound) (ordinary : s.IsOrdinary target)
    (h : s.save name target = (.ok (), s')) :
    Feed.ofPath s'.files s'.dataDir target = .ok (Feed.written t) := by
  obtain ⟨u, l, bytes, ho, hb, hw, hs⟩ := save_eq_ok.mp h
  obtain ⟨hu, file, hfile, -, hl⟩ := opened_eq_ok.mp ho
  cases ht.symm.trans hu
  rw [Storage.Files.write_of_isOrdinary (ordinary file l hfile hl)] at hw
  rw [hs]
  refine map_eq_ok.mpr ⟨file, hfile, ?_⟩
  dsimp only
  rw [← (Prod.mk.inj hw).2, Storage.Files.read_put hl bytes]
  exact Feed.ofBytes_written sound ((bytesOf_eq_ok sound).mp hb) target

theorem table_of_save {s s' : Session} {name target : Text} (h : s.save name target = (.ok (), s'))
    (m : Text) : s'.table m = s.table m := by
  obtain ⟨_, _, _, _, _, _, hs⟩ := save_eq_ok.mp h
  rw [hs]
  rfl

theorem load_of_save {s s' : Session} {name target : Text} {t : Table}
    (ht : s.table name = .ok t) (sound : t.Sound) (ordinary : s.IsOrdinary target)
    (h : s.save name target = (.ok (), s')) :
    (t.HasNullNumber →
      s'.load t.hasHeader name target = .error (.load name (.notInteger []))) ∧
    (¬t.HasNullNumber →
      s'.load t.hasHeader name target = .ok (t.filled, s'.store name t.filled)) := by
  have ht' : s'.table name = .ok t := (table_of_save h name).trans ht
  have hfeed := ofPath_of_save ht sound ordinary h
  obtain ⟨hnull, hfilled⟩ := Feed.readTable_written sound name
  constructor
  · intro hn
    refine bind_eq_error.mpr (Or.inr ⟨t, ht', bind_eq_error.mpr (Or.inr ⟨_, hfeed, ?_⟩)⟩)
    exact bind_eq_error.mpr (Or.inl (mapError_eq_error.mpr ⟨_, hnull hn, rfl⟩))
  · intro hn
    exact load_eq_ok.mpr ⟨t, _, ht', hfeed, hfilled hn, rfl⟩

theorem load_after_save {s s' : Session} {name target : Text} {t : Table} (reached : s.Reachable)
    (bound : s.table name = .ok t) (ordinary : s.IsOrdinary target)
    (saved : s.save name target = (.ok (), s')) :
    ((∃ u s'', s'.load t.hasHeader name target = .ok (u, s'')) ↔
      ∀ r ∈ t.rows, Cell.numeric none ∉ r) ∧
    (∀ u s'', s'.load t.hasHeader name target = .ok (u, s'') →
      s''.table name = .ok u ∧ u = { t with rows := t.rows.map (·.map Cell.filled) }) ∧
    (∀ e, s'.load t.hasHeader name target = .error e →
      (∃ fault, e = .load name fault) ∧
      s'.run (.load name target t.hasHeader) = (.error e, s') ∧ s'.table name = .ok t) ∧
    ((∀ r ∈ t.rows, ∀ c ∈ r, c.isNull = false) →
      s'.load t.hasHeader name target = .ok (t, s'.store name t)) := by
  have sound := reached.sound bound
  have hiff : ¬t.HasNullNumber ↔ ∀ r ∈ t.rows, Cell.numeric none ∉ r :=
    ⟨fun h r hr hn => h ⟨r, hr, hn⟩, fun h ⟨r, hr, hn⟩ => h r hr hn⟩
  obtain ⟨hnull, hfilled⟩ := load_of_save bound sound ordinary saved
  refine ⟨⟨?_, fun h => ⟨_, _, hfilled (hiff.mpr h)⟩⟩, ?_, ?_, ?_⟩
  · rintro ⟨u, s'', hl⟩
    refine hiff.mp fun hn => ?_
    rw [hnull hn] at hl
    cases hl
  · intro u s'' hl
    by_cases hn : t.HasNullNumber
    · rw [hnull hn] at hl
      cases hl
    · rw [hfilled hn] at hl
      cases hl
      exact ⟨table_store_self .., rfl⟩
  · intro e hl
    have ht' : s'.table name = .ok t := (table_of_save saved name).trans bound
    refine ⟨?_, settle_eq_error.mpr ⟨map_eq_error.mpr hl, rfl⟩, ht'⟩
    by_cases hn : t.HasNullNumber
    · rw [hnull hn] at hl
      exact ⟨_, (Except.error.inj hl).symm⟩
    · rw [hfilled hn] at hl
      cases hl
  · intro h
    have hl := hfilled (Table.not_hasNullNumber_of_isNull h)
    rwa [Table.filled_of_isNull h] at hl

theorem Sample.save_ok : (∃ s', session.save "d" "e.csv" = (.ok (), s')) ∧
    ∃ s', session.save "c" "e.csv" = (.ok (), s') := by
  have h : (session.save "d" "e.csv").1.toOption = some () ∧
      (session.save "c" "e.csv").1.toOption = some () := by decide +kernel
  exact ⟨⟨_, Prod.ext (eq_ok_of_toOption h.1) rfl⟩, ⟨_, Prod.ext (eq_ok_of_toOption h.2) rfl⟩⟩

/-- A null text comes back as the empty text, and a null number does not come back. -/
theorem load_after_save_sample :
    (∃ s', Sample.session.save "d" "e.csv" = (.ok (), s') ∧
      ∃ u s'', s'.load true "d" "e.csv" = .ok (u, s'') ∧ s''.table "d" = .ok u ∧
        u.rows = [[.text (some "ant")], [.text (some "bee")], [.text (some "")]]) ∧
    ∃ s', Sample.session.save "c" "e.csv" = (.ok (), s') ∧
      ¬∃ u s'', s'.load true "c" "e.csv" = .ok (u, s'') := by
  obtain ⟨⟨s₁, saved₁⟩, ⟨s₂, saved₂⟩⟩ := Sample.save_ok
  constructor
  · obtain ⟨succeeds, table, _⟩ :=
      load_after_save Sample.reachable_session Sample.table_names
        (fun _ _ _ _ => Sample.isOrdinary_session _) saved₁
    obtain ⟨u, s'', hl⟩ := succeeds.mpr (by decide)
    obtain ⟨hu, rfl⟩ := table u s'' hl
    exact ⟨s₁, saved₁, _, s'', hl, hu, rfl⟩
  · obtain ⟨succeeds, _⟩ := load_after_save Sample.reachable_session Sample.table_joined
      (fun _ _ _ _ => Sample.isOrdinary_session _) saved₂
    exact ⟨s₂, saved₂, fun h => absurd (succeeds.mp h) (by decide)⟩

end TableAlgebra.Session
