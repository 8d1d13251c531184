import TableAlgebra.Proofs.Text.Decimal
import TableAlgebra.Proofs.Text.Pieces
import TableAlgebra.Proofs.Text.Scalar
import TableAlgebra.Table

/-!
# Sound tables

What is true of every table that a session holds (see `Session.Reachable`): it has a column, its
header is absent or as wide as its schema, its rows conform, and every cell and every name can be
written into a file and told apart there.

* `Text.IsField`, `Cell.IsStorable`   texts and cells that a record can hold;
* `Table.Sound`                       the whole invariant;
* `sound_ofRows`                      how a sound table comes about.
-/

namespace TableAlgebra

/-- A text that a field of a record can hold: no comma, no line end and no surrogate is in it. -/
def Text.IsField (t : Text) : Prop :=
  ∀ p ∈ t, p ≠ .char ',' ∧ p ≠ .char '\n' ∧ p ≠ .char '\r' ∧ p.isSurrogate = false

instance (t : Text) : Decidable t.IsField := inferInstanceAs (Decidable (∀ p ∈ t, _))

namespace Text

theorem isField_nil : IsField [] := fun _ h => absurd h List.not_mem_nil

theorem isField_ofInt (n : Int) : IsField (ofInt n) := by
  have hd : IsField (ofNat n.natAbs) := by
    intro p hp
    rw [ofNat_eq_map] at hp
    obtain ⟨c, hc, rfl⟩ := List.mem_map.mp hp
    have hdigit := Nat.isDigit_of_mem_toDigits (by decide) (by decide) hc
    refine ⟨?_, ?_, ?_, rfl⟩ <;>
    · intro e
      cases e
      exact absurd hdigit (by decide)
  rcases Int.lt_or_le n 0 with h | h
  · rw [ofInt_of_neg h]
    intro p hp
    rcases List.mem_cons.mp hp with rfl | hp
    · exact ⟨by decide, by decide, by decide, rfl⟩
    · exact hd p hp
  · rwa [ofInt_of_nonneg h]

end Text

/-! ### Cells and rows -/

namespace Cell

/-- A cell that is written and read back: a number of no more than `maxDigits` digits, a text that a
field can hold, or a null. -/
def IsStorable : Cell → Prop
  | numeric (some n) => n.natAbs < Text.Numeral.bound Text.Numeral.maxDigits
  | text (some s) => s.IsField
  | _ => True

theorem isStorable_null (k : Kind) : (null k).IsStorable := by cases k <;> trivial

theorem IsStorable.isWritable {c : Cell} (h : c.IsStorable) : c.isWritable = true := by
  rcases c with v | v <;> cases v
  · rfl
  · exact Text.Numeral.isShort_iff.mpr h
  · rfl
  · rfl

theorem IsStorable.isField_written {c : Cell} (h : c.IsStorable) : c.written.IsField := by
  cases c with
  | numeric v =>
    cases v with
    | none => exact Text.isField_nil
    | some n => exact Text.isField_ofInt n
  | text v =>
    cases v with
    | none => exact Text.isField_nil
    | some s => exact h

theorem isStorable_of_read {k : Kind} {f : Text} {c : Cell} (hf : f.IsField)
    (h : read k f = .ok c) : c.IsStorable := by
  cases k with
  | text =>
    cases h
    exact hf
  | numeric =>
    obtain ⟨n, hn, rfl⟩ := map_eq_ok.mp h
    exact natAbs_lt_bound hn

end Cell

namespace Row

def IsStorable (r : Row) : Prop := ∀ c ∈ r, c.IsStorable

theorem isStorable_append {r s : Row} (hr : IsStorable r) (hs : IsStorable s) :
    IsStorable (r ++ s) :=
  fun c hc => (List.mem_append.mp hc).elim (hr c) (hs c)

theorem isStorable_nulls (schema : Schema) : IsStorable (nulls schema) := by
  intro c hc
  obtain ⟨k, _, rfl⟩ := List.mem_map.mp hc
  exact Cell.isStorable_null k

theorem IsStorable.cell {r : Row} (h : r.IsStorable) (i : Nat) : (r.cell i).IsStorable :=
  Table.forall_getD (Cell.isStorable_null .text) h i

end Row

/-! ### Tables -/

namespace Table

structure Sound (t : Table) : Prop extends WellFormed t where
  columns : t.schema ≠ []
  cells : ∀ r ∈ t.rows, Row.IsStorable r
  names : ∀ name ∈ t.header, Text.IsField name

theorem mem_fitHeader {schema : Schema} {header : List Text} {name : Text}
    (h : name ∈ fitHeader schema header) : name ∈ header := by
  unfold fitHeader at h
  split at h
  · exact h
  · cases h

/-- Whatever the rows, those that conform make a sound table. -/
theorem sound_ofRows {schema : Schema} {header : List Text} {rows : List Row}
    (hs : schema ≠ []) (hr : ∀ r ∈ rows, Row.IsStorable r) (hn : ∀ name ∈ header, name.IsField) :
    (ofRows schema header rows).Sound where
  toWellFormed := wellFormed_ofRows schema header rows
  columns := hs
  cells r h := hr r (List.mem_filter.mp h).1
  names name h := hn name (mem_fitHeader h)

theorem sound_empty {schema : Schema} (hs : schema ≠ []) : Sound { schema } where
  rows _ h := absurd h List.not_mem_nil
  header := Or.inl rfl
  columns := hs
  cells _ h := absurd h List.not_mem_nil
  names _ h := absurd h List.not_mem_nil

/-- The same rows in another order. -/
theorem Sound.of_perm {t : Table} (h : t.Sound) {rows : List Row} (hp : rows.Perm t.rows) :
    Sound { t with rows } where
  rows r hr := h.rows r (hp.mem_iff.mp hr)
  header := h.header
  columns := h.columns
  cells r hr := h.cells r (hp.mem_iff.mp hr)
  names := h.names

theorem Sound.sort {t : Table} (h : t.Sound) (column : Int) : (t.sort column).2.Sound := by
  rw [sort_eq_with_rows]
  exact h.of_perm (perm_rows_sort t column)

theorem Sound.isField_label {t : Table} (h : t.Sound) (c : Nat) : (t.label c).IsField :=
  forall_getD Text.isField_nil h.names c

/-! ### The written form -/

theorem Sound.isWritable {t : Table} (h : t.Sound) : t.isWritable = true :=
  List.all_eq_true.mpr fun r hr => List.all_eq_true.mpr fun c hc => (h.cells r hr c hc).isWritable

theorem Sound.write_eq {t : Table} (h : t.Sound) : t.write = .ok t.written := by
  rw [Table.write_eq, h.isWritable]
  rfl

theorem isField_of_mem_fields {r : Row} (h : r.IsStorable) {f : Text} (hf : f ∈ r.fields) :
    f.IsField := by
  obtain ⟨c, hc, rfl⟩ := List.mem_map.mp hf
  exact (h c hc).isField_written

/-- A record of fields that can be held holds no line end and no surrogate. -/
theorem mem_joined_comma {ts : List Text} (h : ∀ t ∈ ts, t.IsField) {p : Text.Point}
    (hp : p ∈ Text.joined "," ts) :
    p ≠ .char '\n' ∧ p ≠ .char '\r' ∧ p.isSurrogate = false := by
  rcases Text.mem_joined hp with hp | ⟨t, ht, hp⟩
  · rw [show p = .char ',' from List.mem_singleton.mp hp]
    exact ⟨by decide, by decide, rfl⟩
  · exact (h t ht p hp).2

theorem Sound.mem_record {t : Table} (h : t.Sound) {record : Text} (hr : record ∈ t.records)
    {p : Text.Point} (hp : p ∈ record) :
    p ≠ .char '\n' ∧ p ≠ .char '\r' ∧ p.isSurrogate = false := by
  rcases List.mem_append.mp hr with hr | hr
  · split at hr
    · rw [List.mem_singleton] at hr
      exact mem_joined_comma h.names (hr ▸ hp)
    · cases hr
  · obtain ⟨r, hm, rfl⟩ := List.mem_map.mp hr
    exact mem_joined_comma (fun f hf => isField_of_mem_fields (h.cells r hm) hf) hp

theorem Sound.isScalar_written {t : Table} (h : t.Sound) : t.written.IsScalar := by
  intro p hp
  obtain ⟨record, hr, hp⟩ := List.mem_flatMap.mp hp
  rcases List.mem_append.mp hp with hp | hp
  · exact (h.mem_record hr hp).2.2
  · rw [show p = .char '\n' from List.mem_singleton.mp hp]
    rfl

theorem Sound.exists_bytes {t : Table} (h : t.Sound) :
    ∃ bytes, Text.Utf8.encode t.written = .ok bytes ∧ Text.Utf8.decode bytes = .ok t.written :=
  Text.Utf8.decode_of_encode h.isScalar_written

end Table

end TableAlgebra
