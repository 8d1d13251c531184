import TableAlgebra.Proofs.Storage.Loaded

/-!
# Reading what was written

The written form of a sound table has no quotes, yet it comes apart where it was put together: no
field holds a comma or a line end. A null cell writes nothing, and nothing reads as the empty text
or as no integer at all. So a written table is read back with its null texts filled in, unless one
of its null cells is a number.

* `Table.filled`           the table with empty texts for its null texts;
* `Table.HasNullNumber`    some null cell of the table is a number;
* `readLine_written`       the record of a row is read as the row filled in, or refused;
* `readTable_written`      so is the written form of a table.
-/

namespace TableAlgebra

/-! ### Null texts filled in -/

def Cell.filled : Cell → Cell
  | text none => text (some [])
  | c => c

def Row.filled (r : Row) : Row := r.map Cell.filled

/-- Some null cell of the row is a number. -/
def Row.HasNullNumber (r : Row) : Prop := Cell.numeric none ∈ r

namespace Table

def filled (t : Table) : Table := { t with rows := t.rows.map Row.filled }

def HasNullNumber (t : Table) : Prop := ∃ r ∈ t.rows, Row.HasNullNumber r

theorem filled_of_isNull {t : Table} (h : ∀ r ∈ t.rows, ∀ c ∈ r, c.isNull = false) :
    t.filled = t := by
  have hc : ∀ c : Cell, c.isNull = false → c.filled = c := fun c hc => by
    cases c with
    | numeric v => rfl
    | text v =>
      cases v with
      | none => cases hc
      | some s => rfl
  have hr : ∀ r ∈ t.rows, Row.filled r = r := fun r hr =>
    (List.map_congr_left fun c hc' => hc c (h r hr c hc')).trans (List.map_id r)
  rw [filled, (List.map_congr_left hr).trans (List.map_id t.rows)]

theorem not_hasNullNumber_of_isNull {t : Table} (h : ∀ r ∈ t.rows, ∀ c ∈ r, c.isNull = false) :
    ¬t.HasNullNumber := by
  rintro ⟨r, hr, hn⟩
  have := h r hr _ hn
  cases this

end Table

/-! ### Cells -/

theorem Cell.read_written {c : Cell} (h : c.IsStorable) (hn : c ≠ numeric none) :
    read c.kind c.written = .ok c.filled := by
  cases c with
  | text v => cases v <;> rfl
  | numeric v =>
    cases v with
    | none => exact absurd rfl hn
    | some n =>
      show (readInt (.ofInt n)).map _ = _
      rw [readInt_ofInt h]
      rfl

namespace Storage.Record

/-! ### Records -/

/-- What a null number writes is no integer. -/
def nullFault : Error := .source (.notInteger [])

theorem readCell_written {c : Cell} (h : c.IsStorable) :
    readCell c.kind (some c.written) =
      if c = .numeric none then .error nullFault else .ok c.filled := by
  split
  · next hn =>
    subst hn
    rfl
  · next hn => exact readCell_some_eq_ok.mpr (Cell.read_written h hn)

theorem readCells_written {schema : Schema} {r : Row} (hk : r.map Cell.kind = schema)
    (h : r.IsStorable) :
    (r.HasNullNumber → readCells schema (r.fields.map some) = .error nullFault) ∧
      (¬r.HasNullNumber → readCells schema (r.fields.map some) = .ok r.filled) := by
  induction r generalizing schema with
  | nil =>
    subst hk
    exact ⟨fun hn => absurd hn List.not_mem_nil, fun _ => rfl⟩
  | cons c r ih =>
    subst hk
    obtain ⟨ihnull, ihfilled⟩ := ih rfl fun d hd => h d (List.mem_cons_of_mem _ hd)
    have hc := readCell_written (h c List.mem_cons_self)
    have hcons := readCells_cons c.kind (r.map Cell.kind) c.written (Row.fields r)
    constructor
    · intro hn
      refine hcons.trans ?_
      by_cases hc' : c = .numeric none
      · rw [hc, if_pos hc']
        rfl
      · have hr := (List.mem_cons.mp hn).resolve_left fun e => hc' e.symm
        rw [hc, if_neg hc', ihnull hr]
        rfl
    · intro hn
      have hc' : c ≠ .numeric none := fun e => hn (e ▸ List.mem_cons_self)
      refine hcons.trans ?_
      rw [hc, if_neg hc', ihfilled fun hr => hn (List.mem_cons_of_mem _ hr)]
      rfl

theorem isBody_joined {ts : List Text} (h : ∀ t ∈ ts, t.IsField) : IsBody (Text.joined "," ts) :=
  fun _ hp => ⟨(Table.mem_joined_comma h hp).2.1, (Table.mem_joined_comma h hp).1⟩

/-- The line of some fields splits into them. -/
theorem split_joined {ts : List Text} (hne : ts ≠ []) (h : ∀ t ∈ ts, t.IsField) :
    split (Text.joined "," ts ++ [.char '\n']) = ts := by
  rw [split, stripLineEnd_newline (isBody_joined h)]
  exact Text.splitOn_joined hne fun t ht hm => (h t ht _ hm).1 rfl

theorem readLine_written {schema : Schema} {r : Row} (hs : schema ≠ [])
    (hr : r.conforms schema = true) (h : r.IsStorable) :
    (r.HasNullNumber → readLine schema (r.written ++ [.char '\n']) = .error nullFault) ∧
      (¬r.HasNullNumber → readLine schema (r.written ++ [.char '\n']) = .ok r.filled) := by
  have hl : r.fields.length = schema.length := by
    rw [Row.fields, List.length_map, Row.length_of_conforms hr]
  have hne : r.fields ≠ [] := fun e => hs <| List.length_eq_zero_iff.mp <| by
    rw [← hl, e, List.length_nil]
  have hline : readLine schema (r.written ++ [.char '\n']) =
      readCells schema (r.fields.map some) := by
    rw [readLine, Row.written, split_joined hne fun f hf => Table.isField_of_mem_fields h hf,
      readRow, if_pos (by rw [List.length_map, hl])]
  rw [hline]
  exact readCells_written (Row.conforms_iff.mp hr) h

end Storage.Record

/-! ### Tables -/

namespace Storage.Feed

/-- The lines of a table that was written. -/
def written (t : Table) : Feed := ⟨t.records.map (· ++ [.char '\n']), none⟩

variable {t : Table} (h : t.Sound)
include h

theorem ofBytes_written {bytes : ByteArray} (hb : Text.Utf8.encode t.written = .ok bytes)
    (source : Text) : ofBytes source bytes = written t := by
  obtain ⟨bytes', hb', hd⟩ := h.exists_bytes
  cases hb.symm.trans hb'
  have hreturn : .char '\r' ∉ t.written := by
    intro hm
    obtain ⟨record, hr, hm⟩ := List.mem_flatMap.mp hm
    rcases List.mem_append.mp hm with hm | hm
    · exact (h.mem_record hr hm).2.1 rfl
    · cases List.mem_singleton.mp hm
  have hlines : linesOf t.written = t.records.map (· ++ [.char '\n']) := by
    rw [linesOf, Text.unifyLineEnds_of_no_return hreturn]
    exact Text.textLines_flatMap fun record hr hm => (h.mem_record hr hm).1 rfl
  rw [ofBytes, hd, written, ← hlines]

theorem splitHeader_written (name : Text) :
    splitHeader name t.schema t.hasHeader (written t).lines =
      .ok (t.header, t.rows.map (·.written ++ [.char '\n'])) := by
  have hlines : (written t).lines = (if t.hasHeader then [Text.joined "," t.header ++ [.char '\n']]
      else []) ++ t.rows.map (·.written ++ [.char '\n']) := by
    rw [written, Table.records, Table.recordsOf, List.map_append, List.map_map]
    cases t.hasHeader <;> rfl
  rw [hlines]
  refine splitHeader_eq_ok.mpr ?_
  cases hh : t.header with
  | nil =>
    have hno : t.hasHeader = false := by rw [Table.hasHeader, hh]; rfl
    rw [hno]
    exact Or.inr ⟨Or.inl rfl, rfl, rfl⟩
  | cons name names =>
    have hyes : t.hasHeader = true := by rw [Table.hasHeader, hh]; rfl
    rw [hyes, ← hh]
    refine Or.inl ⟨_, rfl, rfl, (Record.split_joined ?_ h.names).symm, ?_⟩
    · rw [hh]
      exact List.cons_ne_nil _ _
    · exact h.header.resolve_left (by rw [hh]; exact List.cons_ne_nil _ _)

theorem readTable_written (name : Text) :
    (t.HasNullNumber → (written t).readTable name t.schema t.hasHeader = .error Record.nullFault) ∧
      (¬t.HasNullNumber → (written t).readTable name t.schema t.hasHeader = .ok t.filled) := by
  have hrow : ∀ r ∈ t.rows, _ := fun r hr =>
    Record.readLine_written h.columns (h.rows r hr) (h.cells r hr)
  have hmap : (t.rows.map (·.written ++ [.char '\n'])).mapM (Record.readLine t.schema) =
      t.rows.mapM fun r => Record.readLine t.schema (r.written ++ [.char '\n']) := by
    rw [List.mapM_map]
    rfl
  constructor
  · rintro ⟨r, hr, hn⟩
    refine bind_eq_error.mpr (Or.inr ⟨_, splitHeader_written h name, ?_⟩)
    refine bind_eq_error.mpr (Or.inl ?_)
    rw [hmap]
    refine mapM_eq_error_of_mem (fun s hs => ?_) hr ((hrow r hr).1 hn)
    by_cases hsn : s.HasNullNumber
    · exact Or.inr ((hrow s hs).1 hsn)
    · exact Or.inl ⟨_, (hrow s hs).2 hsn⟩
  · intro hn
    refine readTable_eq_ok.mpr ⟨rfl, t.header, _, _, splitHeader_written h name, ?_, rfl⟩
    rw [hmap]
    exact mapM_eq_map fun r hr => (hrow r hr).2 fun hr' => hn ⟨r, hr, hr'⟩

end Storage.Feed

end TableAlgebra
