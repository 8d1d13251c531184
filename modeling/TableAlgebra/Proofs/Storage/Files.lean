import TableAlgebra.Proofs.Outcome
import TableAlgebra.Storage.Files

/-!
# Writing one file

A file is written at the location that its path leads to, and nowhere else; afterwards the same
path leads to the same location, so what the file has kept is read back.

* `exists_write`    a file keeps a beginning of what is written to it;
* `write_of_isOrdinary`   an ordinary file keeps all of it;
* `walk_put`        a file put where no directory is does not change the way along directories;
* `read_put`        reading the path of a file that was put there gives its bytes.
-/

namespace TableAlgebra.Storage.Files

/-! ### What a file keeps -/

theorem write_of_isOrdinary {fs : Files} {l : Location} (h : fs.isOrdinary l = true)
    (content : ByteArray) : fs.write l content = (none, fs.put l (.file content)) := by
  rw [write, Option.isNone_iff_eq_none.mp h]
  rfl

theorem exists_write (fs : Files) (l : Location) (content : ByteArray) :
    ∃ n, (fs.write l content).2 = fs.put l (.file (content.extract 0 n)) := by
  unfold write
  split
  · exact ⟨content.size, by rw [ByteArray.extract_zero_size]⟩
  · next q _ => exact ⟨q.capacity, rfl⟩

/-! ### The way along directories -/

theorem node?_put_directory {fs : Files} {l m : Location} {c : ByteArray}
    (hl : fs.node? l ≠ some .directory) (hm : fs.node? m = some .directory) :
    (fs.put l (.file c)).node? m = some .directory := by
  have hne : m ≠ l := fun e => hl (e ▸ hm)
  rw [node?_put_of_ne hne, hm]

theorem walk_put {fs : Files} {l : Location} {c : ByteArray} (hl : fs.node? l ≠ some .directory)
    {names : List Text} {base d : Location} (h : fs.walk base names = .ok d) :
    (fs.put l (.file c)).walk base names = .ok d := by
  -- what is put is no directory and replaces none, so every step along the names is the same
  induction names generalizing base with
  | nil => exact h
  | cons name names ih =>
    rw [walk] at h ⊢
    obtain ⟨b, hb, h⟩ := bind_eq_ok.mp h
    refine bind_eq_ok.mpr ⟨b, hb, ?_⟩
    by_cases hdot : name = .ofString "."
    · rw [if_pos hdot] at h ⊢
      exact ih h
    · rw [if_neg hdot] at h ⊢
      by_cases hup : name = .ofString ".."
      · rw [if_pos hup] at h ⊢
        exact ih h
      · rw [if_neg hup] at h ⊢
        split at h
        · cases h
        · next hlong =>
          rw [if_neg hlong]
          cases hn : fs.node? (b ++ [name]) with
          | none =>
            rw [hn] at h
            cases h
          | some n =>
            cases n with
            | file _ =>
              rw [hn] at h
              cases h
            | directory =>
              rw [hn] at h
              rw [node?_put_directory hl hn]
              exact ih h

theorem entry_put {fs : Files} {l : Location} {c : ByteArray} (hl : fs.node? l ≠ some .directory)
    {path : Text} {e : Entry} (h : fs.entry path = .ok e) :
    (fs.put l (.file c)).entry path = .ok e := by
  rw [entry] at h ⊢
  split at h
  · cases h
  · next hempty =>
    rw [if_neg hempty]
    split at h
    · cases h
    · next hlong =>
      rw [if_neg hlong]
      cases hlast : (Path.names path).getLast? with
      | none =>
        rw [hlast] at h
        exact h
      | some name =>
        rw [hlast] at h
        obtain ⟨d, hd, hde⟩ := map_eq_ok.mp h
        obtain ⟨w, hw, hs⟩ := bind_eq_ok.mp hd
        exact map_eq_ok.mpr ⟨d, bind_eq_ok.mpr ⟨w, walk_put hl hw, hs⟩, hde⟩

/-! ### The location of a file -/

/-- The location that is written is that of a name in a directory, and no directory itself. -/
theorem target_eq_ok {fs : Files} {path : Text} {l : Location} (h : fs.target path = .ok l) :
    ∃ e, fs.entry path = .ok e ∧ e.location = l ∧ l ≠ [] ∧ e.slash = false ∧ e.isTooLong = false ∧
      fs.node? l ≠ some .directory := by
  obtain ⟨e, he, h⟩ := bind_eq_ok.mp h
  refine ⟨e, he, ?_⟩
  split at h
  · cases h
  · next hdir =>
    rw [Bool.or_eq_true, not_or, Bool.not_eq_true, Bool.not_eq_true] at hdir
    split at h
    · cases h
    · next hlong =>
      split at h
      · cases h
      · next hnode =>
        have hname : ∃ name, e.name = some name := by
          cases hn : e.name with
          | none =>
            rw [hn] at hdir
            exact absurd hdir.1 (by decide)
          | some name => exact ⟨name, rfl⟩
        obtain ⟨name, hname⟩ := hname
        cases h
        refine ⟨rfl, ?_, hdir.2, Bool.not_eq_true _ ▸ hlong, hnode⟩
        rw [Entry.location, hname]
        exact List.append_ne_nil_of_right_ne_nil _ (List.cons_ne_nil _ _)

/-- What was written is read back. -/
theorem read_put {fs : Files} {path : Text} {l : Location} (h : fs.target path = .ok l)
    (content : ByteArray) : (fs.put l (.file content)).read path = .ok content := by
  obtain ⟨e, he, rfl, hne, hslash, hlong, hnode⟩ := target_eq_ok h
  have hfind : (fs.put e.location (.file content)).find path =
      .ok (e.location, .file content) := by
    refine bind_eq_ok.mpr ⟨e, entry_put hnode he, ?_⟩
    rw [if_neg (Bool.not_eq_true _ ▸ hlong), node?_put_self hne, hslash]
    rfl
  exact bind_eq_ok.mpr ⟨_, hfind, rfl⟩

end TableAlgebra.Storage.Files
