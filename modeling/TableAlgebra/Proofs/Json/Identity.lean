import Mathlib.Data.List.Basic
import TableAlgebra.Json.Cell

/-!
# Tables told apart by their JSON

The JSON form of a cell leaves out its kind, but the tags of the schema give it back if the rows
conform. So no two tables have one JSON form. The written form is another matter: a null is written
as the empty text, a number as the text of its digits and a header as a first row.

* `Cell.toJson_inj`        cells of one kind;
* `Row.toJson_inj`         rows of one schema;
* `headerJson_inj`         headers, absent or not;
* `toJson_inj`             tables whose rows conform;
* `plain`, `write_plain`     the table of nothing but texts that is written alike;
* `plain_eq_iff`           the tables that are so already;
* `toJson_eq_iff`          JSON forms, beside written forms.
-/

namespace TableAlgebra

/-! ### Cells and rows -/

theorem map_eq_self_iff {α : Type} {f : α → α} {xs : List α} :
    xs.map f = xs ↔ ∀ x ∈ xs, f x = x := by
  rw [← List.map_inj_left, List.map_id']

theorem Cell.toJson_inj {c d : Cell} (hkind : c.kind = d.kind) (h : c.toJson = d.toJson) :
    c = d := by
  have hread := Cell.ofJson_toJson c
  rw [hkind, h, Cell.ofJson_toJson d] at hread
  exact (Except.ok.inj hread).symm

namespace Row

theorem toJson_inj {r s : Row} (hkinds : r.kinds = s.kinds) (h : r.toJson = s.toJson) : r = s := by
  have hcells : r.map Cell.toJson = s.map Cell.toJson := Json.array.inj h
  clear h
  induction r generalizing s with
  | nil => exact (List.map_eq_nil_iff.mp hkinds.symm).symm
  | cons c r ih =>
    cases s with
    | nil => cases hkinds
    | cons d s =>
      obtain ⟨hkind, hkinds⟩ := List.cons.inj hkinds
      obtain ⟨hcell, hcells⟩ := List.cons.inj hcells
      rw [Cell.toJson_inj hkind hcell, ih hkinds hcells]

theorem map_toJson_inj {schema : Schema} {rs ss : List Row}
    (hrs : ∀ r ∈ rs, r.conforms schema = true) (hss : ∀ s ∈ ss, s.conforms schema = true)
    (h : rs.map toJson = ss.map toJson) : rs = ss := by
  induction rs generalizing ss with
  | nil => exact (List.map_eq_nil_iff.mp h.symm).symm
  | cons r rs ih =>
    cases ss with
    | nil => cases h
    | cons s ss =>
      obtain ⟨hr, hrs⟩ := List.forall_mem_cons.mp hrs
      obtain ⟨hs, hss⟩ := List.forall_mem_cons.mp hss
      obtain ⟨hrow, hrows⟩ := List.cons.inj h
      have hkinds : r.kinds = s.kinds := (conforms_iff.mp hr).trans (conforms_iff.mp hs).symm
      rw [toJson_inj hkinds hrow, ih hrs hss hrows]

/-! ### Rows of texts -/

/-- The row of some texts. -/
def spelled (texts : List Text) : Row := texts.map fun s => .text (some s)

theorem fields_spelled (texts : List Text) : (spelled texts).fields = texts := by
  rw [fields, spelled, List.map_map]
  exact List.map_id texts

theorem written_spelled (texts : List Text) : (spelled texts).written = Text.joined "," texts := by
  rw [written, fields_spelled]

theorem conforms_spelled {texts : List Text} {schema : Schema} (h : texts.length = schema.length) :
    (spelled texts).conforms (schema.map fun _ => .text) = true := by
  rw [conforms_iff, spelled, List.map_map]
  show texts.map (fun _ => Kind.text) = _
  rw [List.map_const', List.map_const', h]

theorem spelled_fields_eq_iff {r : Row} :
    spelled r.fields = r ↔ ∀ c ∈ r, c.kind = .text ∧ c.isNull = false := by
  have hcell : ∀ c : Cell, Cell.text (some c.written) = c ↔ c.kind = .text ∧ c.isNull = false := by
    intro c
    cases c with
    | numeric v => simp [Cell.kind]
    | text v => cases v <;> simp [Cell.kind, Cell.isNull, Cell.written]
  rw [spelled, fields, List.map_map, map_eq_self_iff]
  exact forall₂_congr fun c _ => hcell c

end Row

namespace Table

/-! ### Tables -/

theorem headerJson_inj {t u : Table} (h : t.headerJson = u.headerJson) : t.header = u.header := by
  have hstring : Function.Injective Json.string := fun _ _ e => Json.string.inj e
  unfold headerJson hasHeader at h
  cases ht : t.header <;> cases hu : u.header <;> rw [ht, hu] at h
  case nil.cons => cases h
  case cons.nil => cases h
  case cons.cons => exact List.map_injective_iff.mpr hstring (Json.array.inj h)

theorem schemaJson_inj {p q : Schema}
    (h : p.map (fun k => Json.string k.tag) = q.map fun k => Json.string k.tag) : p = q :=
  List.map_injective_iff.mpr (fun _ _ e => Kind.tag_injective (Json.string.inj e)) h

/-- The rows are compared last: the kinds of their cells are those that the schemas agree on. -/
theorem toJson_inj {t u : Table} (ht : t.RowsConform) (hu : u.RowsConform)
    (h : t.toJson = u.toJson) : t = u := by
  simp only [toJson, Json.object.injEq, List.cons.injEq, Prod.mk.injEq, true_and, and_true,
    Json.array.injEq] at h
  obtain ⟨hheader, hschema, hrows⟩ := h
  have hschema : t.schema = u.schema := schemaJson_inj hschema
  have hrows : t.rows = u.rows := by
    refine Row.map_toJson_inj ht ?_ hrows
    rw [hschema]
    exact hu
  cases t
  cases u
  cases hschema
  cases hrows
  cases headerJson_inj hheader
  rfl

/-! ### Tables that are written alike -/

/-- The header as a first row, and every cell as the text that it is written as. -/
def plain (t : Table) : Table :=
  { schema := t.schema.map fun _ => .text
    rows := (if t.hasHeader then [Row.spelled t.header] else []) ++
      t.rows.map fun r => Row.spelled r.fields }

theorem written_plain (t : Table) : t.plain.written = t.written := by
  have hheader : t.plain.hasHeader = false := rfl
  have hrecords : t.plain.records = t.records := by
    rw [records, recordsOf, hheader]
    show (plain t).rows.map Row.written = t.recordsOf (t.rows.map Row.written)
    rw [plain, recordsOf, List.map_append, List.map_map]
    congr 1
    · split
      · rw [List.map_singleton, Row.written_spelled]
      · rfl
    · exact List.map_congr_left fun r _ => Row.written_spelled r.fields
  rw [written, hrecords, written]

theorem isWritable_plain (t : Table) : t.plain.isWritable = true := by
  have hspelled (texts : List Text) : (Row.spelled texts).isWritable = true :=
    List.all_eq_true.mpr fun c hc => by
      obtain ⟨text, -, rfl⟩ := List.mem_map.mp hc
      rfl
  refine List.all_eq_true.mpr fun r hr => ?_
  rcases List.mem_append.mp hr with hr | hr
  · split at hr
    · rw [List.mem_singleton.mp hr]
      exact hspelled _
    · cases hr
  · obtain ⟨s, -, rfl⟩ := List.mem_map.mp hr
    exact hspelled _

theorem write_plain (t : Table) : t.plain.write = .ok t.written := by
  rw [write_eq, isWritable_plain, written_plain]
  rfl

/-- What a table is written as, if it can be written. -/
theorem eq_written_of_write {t : Table} {text : Text} (h : t.write = .ok text) :
    text = t.written := by
  rw [write_eq, okIf] at h
  split at h <;> cases h
  rfl

theorem wellFormed_plain {t : Table} (h : t.WellFormed) : t.plain.WellFormed := by
  refine ⟨fun r hr => ?_, .inl rfl⟩
  rcases List.mem_append.mp hr with hr | hr
  · split at hr
    · next hheader =>
      rw [List.mem_singleton.mp hr]
      refine Row.conforms_spelled (h.header.resolve_left fun hnil => ?_)
      rw [hasHeader, hnil] at hheader
      cases hheader
    · cases hr
  · obtain ⟨s, hs, rfl⟩ := List.mem_map.mp hr
    exact Row.conforms_spelled ((List.length_map _).trans (h.rows.length_eq hs))

theorem plain_of_header_nil {t : Table} (h : t.header = []) :
    t.plain = { schema := t.schema.map fun _ => .text
                rows := t.rows.map fun r => Row.spelled r.fields } := by
  rw [plain, hasHeader, h]
  rfl

/-- A table is written as it is just if it has no header, no column of numbers and no null. -/
theorem plain_eq_iff {t : Table} (h : t.RowsConform) :
    t.plain = t ↔ t.header = [] ∧ (∀ k ∈ t.schema, k = .text) ∧
      ∀ r ∈ t.rows, ∀ c ∈ r, c.isNull = false := by
  constructor
  · intro hplain
    have hheader : t.header = [] := (congrArg header hplain).symm
    rw [plain_of_header_nil hheader] at hplain
    have hschema := map_eq_self_iff.mp (congrArg schema hplain)
    have hrows := map_eq_self_iff.mp (congrArg rows hplain)
    exact ⟨hheader, fun k hk => (hschema k hk).symm, fun r hr c hc =>
      (Row.spelled_fields_eq_iff.mp (hrows r hr) c hc).2⟩
  · rintro ⟨hheader, htexts, hfull⟩
    have hschema : (t.schema.map fun _ => Kind.text) = t.schema :=
      map_eq_self_iff.mpr fun k hk => (htexts k hk).symm
    have hrows : (t.rows.map fun r => Row.spelled r.fields) = t.rows := by
      refine map_eq_self_iff.mpr fun r hr => Row.spelled_fields_eq_iff.mpr fun c hc => ?_
      have hkind : c.kind ∈ t.schema := by
        rw [← Row.conforms_iff.mp (h r hr)]
        exact List.mem_map_of_mem hc
      exact ⟨htexts _ hkind, hfull r hr c hc⟩
    rw [plain_of_header_nil hheader, hschema, hrows, ← hheader]

/-! ### JSON forms beside written forms -/

/-- Two tables have one JSON form just if they are equal. One that can be written is written like a
table of nothing but texts, and their JSON forms differ as soon as it has a header, a column of
numbers or a null. -/
theorem toJson_eq_iff {t u : Table} (ht : t.WellFormed) (hu : u.WellFormed) :
    (t.toJson = u.toJson ↔ t = u) ∧
      t.plain.WellFormed ∧ (∀ text, t.write = .ok text → t.plain.write = .ok text) ∧
      (t.plain.toJson = t.toJson ↔ t.header = [] ∧ (∀ k ∈ t.schema, k = .text) ∧
        ∀ r ∈ t.rows, ∀ c ∈ r, c.isNull = false) := by
  have hplain := wellFormed_plain ht
  refine ⟨⟨toJson_inj ht.rows hu.rows, congrArg toJson⟩, hplain, fun text htext => ?_, ?_⟩
  · rw [eq_written_of_write htext, write_plain]
  rw [← plain_eq_iff ht.rows]
  exact ⟨toJson_inj hplain.rows ht.rows, congrArg toJson⟩

namespace Sample

def unknown : Table := { schema := [.text], rows := [[.text none]] }

def unnamed : Table := { schema := [.text], rows := [[.text (some "")]] }

def number : Table := { schema := [.numeric], rows := [[.numeric (some 1)]] }

def digit : Table := { schema := [.text], rows := [[.text (some "1")]] }

def headed : Table := { schema := [.text], header := ["a"], rows := [[.text (some "b")]] }

def headless : Table := { schema := [.text], rows := [[.text (some "a")], [.text (some "b")]] }

end Sample

/-- A null and an empty text, a number and its digit, a header and a first row: written alike, and
told apart by JSON. -/
theorem toJson_eq_iff_sample :
    (Sample.unknown.WellFormed ∧ Sample.unnamed.WellFormed ∧
      (∃ text, Sample.unknown.write = .ok text ∧ Sample.unnamed.write = .ok text) ∧
      Sample.unnamed.toJson ≠ Sample.unknown.toJson) ∧
    (Sample.number.WellFormed ∧ Sample.digit.WellFormed ∧
      (∃ text, Sample.number.write = .ok text ∧ Sample.digit.write = .ok text) ∧
      Sample.digit.toJson ≠ Sample.number.toJson) ∧
    (Sample.headed.WellFormed ∧ Sample.headless.WellFormed ∧
      (∃ text, Sample.headed.write = .ok text ∧ Sample.headless.write = .ok text) ∧
      Sample.headless.toJson ≠ Sample.headed.toJson) := by
  have hunknown : Sample.unknown.WellFormed := by decide
  have hunnamed : Sample.unnamed.WellFormed := by decide
  have hnumber : Sample.number.WellFormed := by decide
  have hdigit : Sample.digit.WellFormed := by decide
  have hheaded : Sample.headed.WellFormed := by decide
  have hheadless : Sample.headless.WellFormed := by decide
  obtain ⟨-, -, hnull, hnulls⟩ := toJson_eq_iff hunknown hunnamed
  obtain ⟨-, -, hone, hones⟩ := toJson_eq_iff hnumber hdigit
  obtain ⟨-, -, hfirst, hheaders⟩ := toJson_eq_iff hheaded hheadless
  exact ⟨⟨hunknown, hunnamed, ⟨_, rfl, hnull _ rfl⟩, fun h => absurd (hnulls.mp h) (by decide)⟩,
    ⟨hnumber, hdigit, ⟨_, rfl, hone _ rfl⟩, fun h => absurd (hones.mp h) (by decide)⟩,
    hheaded, hheadless, ⟨_, rfl, hfirst _ rfl⟩, fun h => absurd (hheaders.mp h) (by decide)⟩

end Table

end TableAlgebra
