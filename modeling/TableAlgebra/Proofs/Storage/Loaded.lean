import TableAlgebra.Proofs.Table.Sound
import TableAlgebra.Proofs.Text.Pieces
import TableAlgebra.Storage.Source

/-!
# Tables that are read are sound

The fields of a line hold no comma and no line end, since a file is cut at both, and no surrogate,
since a file is decoded. So a table that is read from a file is sound, whatever the file holds.

* `readCells_eq_ok`     the row of a record conforms to the schema that it is read by;
* `splitHeader_eq_ok`   what is header and what are records;
* `sound_readTable`     the table that is read is sound;
* `isField_of_ofPath`   the fields of a file are such as `sound_readTable` asks for.
-/

namespace TableAlgebra.Storage

namespace Record

theorem readCell_some_eq_ok {k : Kind} {f : Text} {c : Cell} :
    readCell k (some f) = .ok c ↔ Cell.read k f = .ok c := mapError_eq_ok

theorem readCells_cons (k : Kind) (ks : Schema) (f : Text) (fs : List Text) :
    readCells (k :: ks) ((f :: fs).map some) =
      readCell k (some f) >>= fun c => readCells ks (fs.map some) >>= fun cs => .ok (c :: cs) := rfl

theorem readCells_cons_eq_ok {k : Kind} {ks : Schema} {f : Text} {fs : List Text} {row : Row} :
    readCells (k :: ks) ((f :: fs).map some) = .ok row ↔
      ∃ c cs, readCell k (some f) = .ok c ∧ readCells ks (fs.map some) = .ok cs ∧
        row = c :: cs := by
  rw [readCells_cons]
  constructor
  · intro h
    obtain ⟨c, hc, h⟩ := bind_eq_ok.mp h
    obtain ⟨cs, hcs, h⟩ := bind_eq_ok.mp h
    cases h
    exact ⟨c, cs, hc, hcs, rfl⟩
  · rintro ⟨c, cs, hc, hcs, rfl⟩
    exact bind_eq_ok.mpr ⟨c, hc, bind_eq_ok.mpr ⟨cs, hcs, rfl⟩⟩

theorem readCells_eq_ok {schema : Schema} {fields : List Text} {row : Row}
    (hl : fields.length = schema.length) (h : readCells schema (fields.map some) = .ok row) :
    row.map Cell.kind = schema ∧ ((∀ f ∈ fields, f.IsField) → row.IsStorable) := by
  induction schema generalizing fields row with
  | nil =>
    rw [List.length_eq_zero_iff.mp hl] at h
    cases h
    exact ⟨rfl, fun _ c hc => absurd hc List.not_mem_nil⟩
  | cons k ks ih =>
    cases fields with
    | nil => cases hl
    | cons f fs =>
      obtain ⟨c, cs, hc, hcs, rfl⟩ := readCells_cons_eq_ok.mp h
      have hread := readCell_some_eq_ok.mp hc
      obtain ⟨hkinds, hstore⟩ := ih (Nat.succ.inj hl) hcs
      refine ⟨?_, fun hf d hd => ?_⟩
      · rw [List.map_cons, Cell.kind_of_read hread, hkinds]
      · rcases List.mem_cons.mp hd with rfl | hd
        · exact Cell.isStorable_of_read (hf f List.mem_cons_self) hread
        · exact hstore (fun g hg => hf g (List.mem_cons_of_mem _ hg)) d hd

theorem readLine_eq_ok {schema : Schema} {line : Text} {row : Row}
    (h : readLine schema line = .ok row) :
    row.conforms schema = true ∧ ((∀ f ∈ split line, f.IsField) → row.IsStorable) := by
  rw [readLine, readRow] at h
  split at h
  · next hl =>
    rw [List.length_map] at hl
    obtain ⟨hkinds, hstore⟩ := readCells_eq_ok hl h
    exact ⟨Row.conforms_iff.mpr hkinds, hstore⟩
  · cases h

/-- The fields of a line of a decoded file. -/
theorem isField_of_mem_split {t line f : Text} (ht : t.IsScalar)
    (hl : line ∈ t.unifyLineEnds.textLines) (hf : f ∈ split line) : f.IsField := by
  obtain ⟨hbody, hsub⟩ := exists_line hl
  intro p hp
  obtain ⟨hcomma, hmem⟩ := Text.mem_splitOn hf p hp
  obtain ⟨hreturn, hnewline⟩ := hbody p hmem
  exact ⟨hcomma, hnewline, hreturn, ht p (hsub p hmem)⟩

end Record

namespace Feed

theorem splitHeader_eq_ok {table : Text} {schema : Schema} {headed : Bool}
    {lines rest header : List Text} :
    splitHeader table schema headed lines = .ok (header, rest) ↔
      (∃ line, headed = true ∧ lines = line :: rest ∧ header = Record.split line ∧
        header.length = schema.length) ∨
      ((headed = false ∨ lines = []) ∧ header = [] ∧ rest = lines) := by
  cases headed with
  | false =>
    constructor
    · intro h
      cases h
      exact Or.inr ⟨Or.inl rfl, rfl, rfl⟩
    · rintro (⟨_, h, _⟩ | ⟨_, rfl, rfl⟩)
      · cases h
      · rfl
  | true =>
    cases lines with
    | nil =>
      constructor
      · intro h
        cases h
        exact Or.inr ⟨Or.inr rfl, rfl, rfl⟩
      · rintro (⟨_, _, h, _⟩ | ⟨_, rfl, rfl⟩)
        · cases h
        · rfl
    | cons line lines =>
      unfold splitHeader
      dsimp only
      constructor
      · intro h
        split at h
        · next hl =>
          cases h
          exact Or.inl ⟨line, rfl, rfl, rfl, hl⟩
        · cases h
      · rintro (⟨_, _, h, rfl, hl⟩ | ⟨h, _⟩)
        · obtain ⟨rfl, rfl⟩ := List.cons.inj h
          rw [if_pos hl]
        · rcases h with h | h <;> cases h

theorem readTable_eq_ok {feed : Feed} {table : Text} {schema : Schema} {headed : Bool} {u : Table} :
    feed.readTable table schema headed = .ok u ↔
      feed.fault = none ∧ ∃ header lines rows,
        splitHeader table schema headed feed.lines = .ok (header, lines) ∧
        lines.mapM (Record.readLine schema) = .ok rows ∧ u = { schema, header, rows } := by
  constructor
  · intro h
    obtain ⟨⟨header, lines⟩, hsplit, h⟩ := bind_eq_ok.mp h
    obtain ⟨rows, hrows, h⟩ := bind_eq_ok.mp h
    cases hf : feed.fault with
    | none =>
      rw [hf] at h
      cases h
      exact ⟨rfl, header, lines, rows, hsplit, hrows, rfl⟩
    | some f =>
      rw [hf] at h
      cases h
  · rintro ⟨hf, header, lines, rows, hsplit, hrows, rfl⟩
    refine bind_eq_ok.mpr ⟨(header, lines), hsplit, bind_eq_ok.mpr ⟨rows, hrows, ?_⟩⟩
    rw [hf]
    rfl

/-- The table that is read is sound when its fields can be held. -/
theorem sound_readTable {feed : Feed} {table : Text} {schema : Schema} {headed : Bool} {u : Table}
    (hs : schema ≠ []) (hf : ∀ line ∈ feed.lines, ∀ f ∈ Record.split line, f.IsField)
    (h : feed.readTable table schema headed = .ok u) : u.Sound := by
  obtain ⟨_, header, lines, rows, hsplit, hrows, rfl⟩ := readTable_eq_ok.mp h
  have hrow : ∀ r ∈ rows, ∃ line ∈ lines, Record.readLine schema line = .ok r :=
    fun r hr => exists_of_mem_mapM hrows hr
  have hconform : ∀ r ∈ rows, r.conforms schema = true := fun r hr => by
    obtain ⟨line, _, hread⟩ := hrow r hr
    exact (Record.readLine_eq_ok hread).1
  have hparts : (∀ line ∈ lines, line ∈ feed.lines) ∧
      (header = [] ∨ header.length = schema.length) ∧ ∀ name ∈ header, name.IsField := by
    rcases splitHeader_eq_ok.mp hsplit with ⟨line, _, hl, rfl, hw⟩ | ⟨_, rfl, rfl⟩
    · rw [hl] at hf ⊢
      exact ⟨fun l hm => List.mem_cons_of_mem _ hm, Or.inr hw, hf line List.mem_cons_self⟩
    · exact ⟨fun _ hm => hm, Or.inl rfl, fun _ hm => absurd hm List.not_mem_nil⟩
  obtain ⟨hlines, hheader, hnames⟩ := hparts
  refine { rows := hconform, header := hheader, columns := hs, cells := ?_, names := hnames }
  intro r hr
  obtain ⟨line, hline, hread⟩ := hrow r hr
  exact (Record.readLine_eq_ok hread).2 (hf line (hlines line hline))

/-! ### Files -/

/-- The lines of a file that can be read to its end are those of a decoded text. -/
theorem exists_text_of_ofBytes {source : Text} {bytes : ByteArray}
    (h : (ofBytes source bytes).fault = none) :
    ∃ t : Text, t.IsScalar ∧ (ofBytes source bytes).lines = t.unifyLineEnds.textLines := by
  unfold ofBytes at h ⊢
  split at h
  · next text hd => exact ⟨text, Text.Utf8.isScalar_of_decode hd, rfl⟩
  · cases h
  · cases h

theorem isField_of_ofPath {fs : Files} {base source : Text} {feed : Feed}
    (h : ofPath fs base source = .ok feed) (hf : feed.fault = none) :
    ∀ line ∈ feed.lines, ∀ f ∈ Record.split line, f.IsField := by
  obtain ⟨file, _, rfl⟩ := map_eq_ok.mp h
  intro line hline f hmem
  cases hr : fs.read file with
  | ok bytes =>
    rw [hr] at hf hline
    obtain ⟨t, ht, hlines⟩ := exists_text_of_ofBytes hf
    rw [show (ofBytes source bytes).lines = _ from hlines] at hline
    exact Record.isField_of_mem_split ht hline hmem
  | error cause =>
    rw [hr] at hf
    cases cause <;> cases hf

end Feed

end TableAlgebra.Storage
