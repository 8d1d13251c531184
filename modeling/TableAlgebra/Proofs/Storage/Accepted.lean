import Mathlib.Data.List.DropRight
import Mathlib.Data.List.Forall2
import TableAlgebra.Proofs.Session.Effect
import TableAlgebra.Proofs.Text.Filled

/-!
# What can be loaded

Which lines are loaded into a table, what they become, and what is wrong with the others, in terms
of the fields of the lines alone. A line is a record if there are as many fields as columns and the
fields for numbers are integers that are not too long. The first fault counts: of the header, then
of the records in order; of a record its number of fields, then its fields from the left.

* `fieldsOf line`                  the fields, without the line ends at the end of the line;
* `Admits`, `Makes`, `FieldFault`  what a field is for a column of a kind;
* `IsRecord`, `IsRow`, `Fault`     what fields are for the columns of a schema;
* `IsSource`, `IsTable`, `Refuses` what lines are for a table;
* `loadFeed_lines`                 a session loads the lines that are a source, and no others.
-/

namespace TableAlgebra

open Text (Numeral)

/-! ### Lists of steps -/

theorem mapM_eq_ok {ε α β : Type} {f : α → Except ε β} {xs : List α} {ys : List β} :
    xs.mapM f = .ok ys ↔ List.Forall₂ (fun x y => f x = .ok y) xs ys := by
  induction xs generalizing ys with
  | nil =>
    rw [List.forall₂_nil_left_iff]
    exact ⟨fun h => (Except.ok.inj h).symm, fun h => h ▸ rfl⟩
  | cons x xs ih =>
    rw [mapM_cons, List.forall₂_cons_left_iff]
    constructor
    · intro h
      obtain ⟨y, hy, h⟩ := bind_eq_ok.mp h
      obtain ⟨zs, hzs, h⟩ := bind_eq_ok.mp h
      cases h
      exact ⟨y, zs, hy, ih.mp hzs, rfl⟩
    · rintro ⟨y, zs, hy, hzs, rfl⟩
      exact bind_eq_ok.mpr ⟨y, hy, bind_eq_ok.mpr ⟨zs, ih.mpr hzs, rfl⟩⟩

theorem exists_forall₂ {α β : Type} {R : α → β → Prop} {xs : List α} :
    (∃ ys, List.Forall₂ R xs ys) ↔ ∀ x ∈ xs, ∃ y, R x y := by
  induction xs with
  | nil => exact iff_of_true ⟨[], .nil⟩ fun _ hx => nomatch hx
  | cons x xs ih =>
    simp only [List.forall₂_cons_left_iff, List.forall_mem_cons, ← ih]
    constructor
    · rintro ⟨_, y, ys, hy, hys, -⟩
      exact ⟨⟨y, hy⟩, ys, hys⟩
    · rintro ⟨⟨y, hy⟩, ys, hys⟩
      exact ⟨_, y, ys, hy, hys, rfl⟩

namespace Storage

namespace Record

/-! ### Fields -/

/-- The fields of a line: what the commas leave of it, without the line ends at its end. -/
def fieldsOf (line : Text) : List Text :=
  List.splitOn (.char ',') (line.rdropWhile fun c => c = .char '\r' || c = .char '\n')

theorem split_eq_fieldsOf (line : Text) : split line = fieldsOf line := Text.splitOn_eq _ _

/-- The field can be in a column of the kind: any text can, and an integer of so many digits. -/
inductive Admits : Kind → Text → Prop
  | text (field : Text) : Admits .text field
  | numeric {num : Numeral} {field : Text} (fills : num.Fills field)
      (short : num.digits.length ≤ Numeral.maxDigits) : Admits .numeric field

/-- The cell that a field makes: the text as it is, or the value of the integer. -/
inductive Makes : Kind → Text → Cell → Prop
  | text (field : Text) : Makes .text field (.text (some field))
  | numeric {num : Numeral} {field : Text} (fills : num.Fills field)
      (short : num.digits.length ≤ Numeral.maxDigits) :
      Makes .numeric field (.numeric (some num.toInt))

/-- What is wrong with a field: it is no integer, or has too many digits. -/
inductive FieldFault : Kind → Text → Error → Prop
  | notInteger {field : Text} (none : ∀ num : Numeral, ¬num.Fills field) :
      FieldFault .numeric field (.source (.notInteger field))
  | tooLong {num : Numeral} {field : Text} (fills : num.Fills field)
      (long : Numeral.maxDigits < num.digits.length) :
      FieldFault .numeric field (.tooManyDigits num.digits.length)

theorem readCell_eq_ok {k : Kind} {f : Text} {c : Cell} :
    readCell k (some f) = .ok c ↔ Makes k f c := by
  rw [readCell_some_eq_ok]
  cases k with
  | text =>
    constructor
    · intro h
      cases h
      exact .text f
    · intro h
      cases h
      rfl
  | numeric =>
    rw [Cell.read, map_eq_ok]
    constructor
    · rintro ⟨n, hn, rfl⟩
      obtain ⟨num, hfills, hshort, rfl⟩ := Cell.readInt_eq_ok.mp hn
      exact .numeric hfills hshort
    · intro h
      cases h with
      | @numeric num _ fills short =>
        exact ⟨_, Cell.readInt_eq_ok.mpr ⟨num, fills, short, rfl⟩, rfl⟩

theorem readCell_eq_error {k : Kind} {f : Text} {e : Error} :
    readCell k (some f) = .error e ↔ FieldFault k f e := by
  rw [readCell, mapError_eq_error]
  cases k with
  | text => exact ⟨fun ⟨_, h, _⟩ => (nomatch h), nofun⟩
  | numeric =>
    show (∃ e', (Cell.readInt f).map _ = .error e' ∧ _) ↔ _
    simp only [map_eq_error, Cell.readInt_eq_error]
    constructor
    · rintro ⟨e', ⟨hnone, rfl⟩ | ⟨num, hfills, hlong, rfl⟩, rfl⟩
      · exact .notInteger hnone
      · exact .tooLong hfills hlong
    · intro h
      cases h with
      | notInteger none => exact ⟨_, Or.inl ⟨none, rfl⟩, rfl⟩
      | @tooLong num _ fills long => exact ⟨_, Or.inr ⟨num, fills, long, rfl⟩, rfl⟩

theorem admits_iff {k : Kind} {f : Text} : Admits k f ↔ ∃ c, Makes k f c := by
  constructor
  · intro h
    cases h with
    | text => exact ⟨_, .text f⟩
    | numeric fills short => exact ⟨_, .numeric fills short⟩
  · rintro ⟨c, h⟩
    cases h with
    | text => exact .text f
    | numeric fills short => exact .numeric fills short

/-! ### Records -/

/-- There is one field for each column, and each can be in its column. -/
def IsRecord (schema : Schema) (fields : List Text) : Prop := List.Forall₂ Admits schema fields

/-- The row has the cells that the fields make, one for each column. -/
inductive IsRow : Schema → List Text → Row → Prop
  | nil : IsRow [] [] []
  | cons {k : Kind} {ks : Schema} {f : Text} {fs : List Text} {c : Cell} {cs : Row}
      (cell : Makes k f c) (row : IsRow ks fs cs) : IsRow (k :: ks) (f :: fs) (c :: cs)

/-- What is wrong with the first field from the left that cannot be in its column. -/
inductive FirstFault : Schema → List Text → Error → Prop
  | here {k : Kind} {ks : Schema} {f : Text} {fs : List Text} {e : Error}
      (fault : FieldFault k f e) : FirstFault (k :: ks) (f :: fs) e
  | later {k : Kind} {ks : Schema} {f : Text} {fs : List Text} {e : Error} (sound : Admits k f)
      (fault : FirstFault ks fs e) : FirstFault (k :: ks) (f :: fs) e

/-- What is wrong with a record: the number of its fields, or else the first bad one of them. -/
inductive Fault (schema : Schema) (fields : List Text) : Error → Prop
  | width (other : fields.length ≠ schema.length) :
      Fault schema fields (.source (.recordWidth fields.length schema.length))
  | field {e : Error} (width : fields.length = schema.length)
      (first : FirstFault schema fields e) : Fault schema fields e

theorem readCells_eq_ok_iff {schema : Schema} {fields : List Text} {row : Row}
    (h : fields.length = schema.length) :
    readCells schema (fields.map some) = .ok row ↔ IsRow schema fields row := by
  induction schema generalizing fields row with
  | nil =>
    rw [List.length_eq_zero_iff.mp h]
    constructor
    · intro h
      cases h
      exact .nil
    · intro h
      cases h
      rfl
  | cons k ks ih =>
    cases fields with
    | nil => cases h
    | cons f fs =>
      rw [readCells_cons_eq_ok]
      constructor
      · rintro ⟨c, cs, hc, hcs, rfl⟩
        exact .cons (readCell_eq_ok.mp hc) ((ih (Nat.succ.inj h)).mp hcs)
      · intro h'
        cases h' with
        | cons cell row =>
          exact ⟨_, _, readCell_eq_ok.mpr cell, (ih (Nat.succ.inj h)).mpr row, rfl⟩

theorem readCells_eq_error {schema : Schema} {fields : List Text} {e : Error}
    (h : fields.length = schema.length) :
    readCells schema (fields.map some) = .error e ↔ FirstFault schema fields e := by
  induction schema generalizing fields with
  | nil =>
    rw [List.length_eq_zero_iff.mp h]
    exact ⟨fun h => (nomatch h), nofun⟩
  | cons k ks ih =>
    cases fields with
    | nil => cases h
    | cons f fs =>
      rw [readCells_cons, bind_eq_error]
      constructor
      · rintro (he | ⟨c, hc, he⟩)
        · exact .here (readCell_eq_error.mp he)
        · rcases bind_eq_error.mp he with he | ⟨_, _, he⟩
          · exact .later (admits_iff.mpr ⟨c, readCell_eq_ok.mp hc⟩) ((ih (Nat.succ.inj h)).mp he)
          · cases he
      · intro h'
        cases h' with
        | here fault => exact Or.inl (readCell_eq_error.mpr fault)
        | later sound fault =>
          obtain ⟨c, hc⟩ := admits_iff.mp sound
          exact Or.inr ⟨c, readCell_eq_ok.mpr hc,
            bind_eq_error.mpr (Or.inl ((ih (Nat.succ.inj h)).mpr fault))⟩

theorem IsRow.length_eq {schema : Schema} {fields : List Text} {row : Row}
    (h : IsRow schema fields row) : fields.length = schema.length := by
  induction h with
  | nil => rfl
  | cons _ _ ih => exact congrArg Nat.succ ih

theorem isRecord_iff {schema : Schema} {fields : List Text} :
    IsRecord schema fields ↔ ∃ row, IsRow schema fields row := by
  constructor
  · intro h
    induction h with
    | nil => exact ⟨[], .nil⟩
    | cons hfield _ ih =>
      obtain ⟨c, hc⟩ := admits_iff.mp hfield
      obtain ⟨cs, hcs⟩ := ih
      exact ⟨c :: cs, .cons hc hcs⟩
  · rintro ⟨row, h⟩
    induction h with
    | nil => exact .nil
    | cons hcell _ ih => exact .cons (admits_iff.mpr ⟨_, hcell⟩) ih

variable {schema : Schema} {line : Text}

theorem readLine_eq_ok_iff {row : Row} :
    readLine schema line = .ok row ↔ IsRow schema (fieldsOf line) row := by
  rw [readLine, split_eq_fieldsOf, readRow, List.length_map]
  by_cases h : (fieldsOf line).length = schema.length
  · rw [if_pos h, readCells_eq_ok_iff h]
  · rw [if_neg h]
    refine iff_of_false (fun he => ?_) fun hrow => h hrow.length_eq
    cases he

theorem readLine_eq_error {e : Error} :
    readLine schema line = .error e ↔ Fault schema (fieldsOf line) e := by
  rw [readLine, split_eq_fieldsOf, readRow, List.length_map]
  by_cases h : (fieldsOf line).length = schema.length
  · rw [if_pos h, readCells_eq_error h]
    refine ⟨.field h, fun hfault => ?_⟩
    cases hfault with
    | width other => exact absurd h other
    | field _ first => exact first
  · rw [if_neg h]
    constructor
    · intro he
      cases he
      exact .width h
    · intro hfault
      cases hfault with
      | width => rfl
      | field width => exact absurd width h

theorem isRecord_iff_readLine : IsRecord schema (fieldsOf line) ↔
    ∃ row, readLine schema line = .ok row := by
  rw [isRecord_iff]
  exact exists_congr fun _ => readLine_eq_ok_iff.symm

end Record

/-! ### Sources -/

namespace Feed

open Record (fieldsOf IsRecord IsRow Fault)

def headerLine (headed : Bool) (lines : List Text) : Option Text :=
  if headed then lines.head? else none

def recordLines (headed : Bool) (lines : List Text) : List Text :=
  if headed then lines.tail else lines

/-- A header is as wide as the schema. -/
def HeaderFits (schema : Schema) (headed : Bool) (lines : List Text) : Prop :=
  ∀ line ∈ headerLine headed lines, (fieldsOf line).length = schema.length

/-- The lines can be loaded: the header is as wide as the schema, and the others are records. -/
structure IsSource (schema : Schema) (headed : Bool) (lines : List Text) : Prop where
  header : HeaderFits schema headed lines
  records : ∀ line ∈ recordLines headed lines, IsRecord schema (fieldsOf line)

/-- The table that the lines make: their first one is its header, if there is one, and each of the
others is a row. -/
structure IsTable (schema : Schema) (headed : Bool) (lines : List Text) (t : Table) : Prop where
  kinds : t.schema = schema
  header : t.header = ((headerLine headed lines).map fieldsOf).getD []
  rows : List.Forall₂ (fun line row => IsRow schema (fieldsOf line) row)
    (recordLines headed lines) t.rows

/-- What is wrong with lines for a table of that name: the width of the header, or else the first
record that is none. -/
inductive Refuses (name : Text) (schema : Schema) (headed : Bool) (lines : List Text) : Error → Prop
  | header {line : Text} (first : headerLine headed lines = some line)
      (width : (fieldsOf line).length ≠ schema.length) :
      Refuses name schema headed lines
        (.load name (.headerWidth (fieldsOf line).length name schema.length))
  | record {before after : List Text} {line : Text} {e : Error}
      (header : HeaderFits schema headed lines)
      (parts : recordLines headed lines = before ++ line :: after)
      (sound : ∀ l ∈ before, IsRecord schema (fieldsOf l))
      (fault : Fault schema (fieldsOf line) e) :
      Refuses name schema headed lines (Session.namingTable name e)

variable (table : Text) {schema : Schema} {headed : Bool} {lines : List Text}

theorem splitHeader_eq_ok_iff {header rest : List Text} :
    splitHeader table schema headed lines = .ok (header, rest) ↔
      HeaderFits schema headed lines ∧
        header = ((headerLine headed lines).map fieldsOf).getD [] ∧
        rest = recordLines headed lines := by
  rw [splitHeader_eq_ok]
  cases headed with
  | false => simp [HeaderFits, headerLine, recordLines]
  | true =>
    cases lines with
    | nil => simp [HeaderFits, headerLine, recordLines]
    | cons line lines =>
      simp only [Record.split_eq_fieldsOf]
      constructor
      · rintro (⟨_, -, hlines, rfl, hwidth⟩ | ⟨h, -⟩)
        · cases hlines
          exact ⟨fun _ hl => Option.some.inj hl ▸ hwidth, rfl, rfl⟩
        · rcases h with h | h <;> cases h
      · rintro ⟨hfits, rfl, rfl⟩
        exact Or.inl ⟨line, trivial, rfl, rfl, hfits line rfl⟩

theorem splitHeader_eq_error {e : Error} :
    splitHeader table schema headed lines = .error e ↔
      ∃ line, headerLine headed lines = some line ∧ (fieldsOf line).length ≠ schema.length ∧
        e = .source (.headerWidth (fieldsOf line).length table schema.length) := by
  cases headed with
  | false => exact ⟨fun h => (nomatch h), fun ⟨_, h, _⟩ => (nomatch h)⟩
  | true =>
    cases lines with
    | nil => exact ⟨fun h => (nomatch h), fun ⟨_, h, _⟩ => (nomatch h)⟩
    | cons line lines =>
      rw [splitHeader, Record.split_eq_fieldsOf]
      constructor
      · intro h
        split at h
        · cases h
        · next hwidth =>
          cases h
          exact ⟨line, rfl, hwidth, rfl⟩
      · rintro ⟨_, hline, hwidth, rfl⟩
        cases hline
        rw [if_neg hwidth]

theorem readTable_lines_eq_ok {u : Table} :
    readTable ⟨lines, none⟩ table schema headed = .ok u ↔
      HeaderFits schema headed lines ∧ IsTable schema headed lines u := by
  simp only [readTable_eq_ok, splitHeader_eq_ok_iff, mapM_eq_ok, Record.readLine_eq_ok_iff]
  constructor
  · rintro ⟨-, header, rest, rows, ⟨hfits, rfl, rfl⟩, hrows, rfl⟩
    exact ⟨hfits, rfl, rfl, hrows⟩
  · rintro ⟨hfits, rfl, hheader, hrows⟩
    exact ⟨trivial, _, _, u.rows, ⟨hfits, rfl, rfl⟩, hrows, by rw [← hheader]⟩

/-- The header and all rows are read, or the first fault is met on the way. -/
theorem readTable_lines_eq_error {e : Error} :
    readTable ⟨lines, none⟩ table schema headed = .error e ↔
      (∃ line, headerLine headed lines = some line ∧ (fieldsOf line).length ≠ schema.length ∧
        e = .source (.headerWidth (fieldsOf line).length table schema.length)) ∨
      (HeaderFits schema headed lines ∧ ∃ before line after,
        recordLines headed lines = before ++ line :: after ∧
        (∀ l ∈ before, IsRecord schema (fieldsOf l)) ∧ Fault schema (fieldsOf line) e) := by
  rw [readTable, bind_eq_error, splitHeader_eq_error]
  refine or_congr_right ?_
  simp only [Record.isRecord_iff_readLine, ← Record.readLine_eq_error]
  rw [← mapM_eq_error]
  constructor
  · rintro ⟨⟨header, rest⟩, hsplit, he⟩
    obtain ⟨hfits, -, rfl⟩ := (splitHeader_eq_ok_iff table).mp hsplit
    rcases bind_eq_error.mp he with he | ⟨_, _, he⟩
    · exact ⟨hfits, he⟩
    · cases he
  · rintro ⟨hfits, he⟩
    have hsplit := (splitHeader_eq_ok_iff table).mpr ⟨hfits, rfl, rfl⟩
    exact ⟨_, hsplit, bind_eq_error.mpr (Or.inl he)⟩

theorem isSource_iff : IsSource schema headed lines ↔
    HeaderFits schema headed lines ∧ ∃ u, IsTable schema headed lines u := by
  constructor
  · rintro ⟨hfits, hrecords⟩
    refine ⟨hfits, ?_⟩
    obtain ⟨rows, hrows⟩ := exists_forall₂.mpr fun line hline =>
      Record.isRecord_iff.mp (hrecords line hline)
    exact ⟨⟨schema, _, rows⟩, rfl, rfl, hrows⟩
  · rintro ⟨hfits, u, -, -, hrows⟩
    refine ⟨hfits, fun line hline => ?_⟩
    exact Record.isRecord_iff.mpr (exists_forall₂.mp ⟨_, hrows⟩ line hline)

end Feed

end Storage

/-! ### Sessions -/

namespace Session

open Storage (Feed)
open Storage.Feed (IsSource IsTable Refuses)

/-- A table that is defined is replaced by what the lines are for its schema, if they can be loaded;
if not, the first fault of them is the answer. -/
theorem loadFeed_lines {s : Session} {name : Text} {t : Table} (h : s.table name = .ok t)
    (headed : Bool) (lines : List Text) :
    ((∃ r, s.loadFeed headed name (.ok ⟨lines, none⟩) = .ok r) ↔
      IsSource t.schema headed lines) ∧
    (∀ u s', s.loadFeed headed name (.ok ⟨lines, none⟩) = .ok (u, s') →
      IsTable t.schema headed lines u ∧ s' = s.store name u) ∧
    ∀ e, s.loadFeed headed name (.ok ⟨lines, none⟩) = .error e ↔
      Refuses name t.schema headed lines e := by
  have hok {u : Table} {s' : Session} :
      s.loadFeed headed name (.ok ⟨lines, none⟩) = .ok (u, s') ↔
        (Feed.HeaderFits t.schema headed lines ∧ IsTable t.schema headed lines u) ∧
          s' = s.store name u := by
    rw [loadFeed_eq_ok, ← Feed.readTable_lines_eq_ok name, h]
    constructor
    · rintro ⟨_, _, ht, hfeed, hu, rfl⟩
      cases ht
      cases hfeed
      exact ⟨hu, rfl⟩
    · rintro ⟨hu, rfl⟩
      exact ⟨t, _, rfl, rfl, hu, rfl⟩
  refine ⟨?_, fun u s' hu => ⟨(hok.mp hu).1.2, (hok.mp hu).2⟩, fun e => ?_⟩
  · rw [Feed.isSource_iff]
    constructor
    · rintro ⟨⟨u, s'⟩, hu⟩
      obtain ⟨⟨hfits, htable⟩, -⟩ := hok.mp hu
      exact ⟨hfits, u, htable⟩
    · rintro ⟨hfits, u, htable⟩
      exact ⟨_, hok.mpr ⟨⟨hfits, htable⟩, rfl⟩⟩
  · rw [loadFeed_eq_error h]
    simp only [Feed.readTable_lines_eq_error]
    constructor
    · rintro ⟨_, ⟨line, hfirst, hwidth, rfl⟩ | ⟨hfits, before, line, after, hparts, hsound, hfault⟩,
        rfl⟩
      · exact .header hfirst hwidth
      · exact .record hfits hparts hsound hfault
    · intro he
      cases he with
      | @header line first width => exact ⟨_, Or.inl ⟨line, first, width, rfl⟩, rfl⟩
      | @record before after line e header parts sound fault =>
        exact ⟨e, Or.inr ⟨header, before, line, after, parts, sound, fault⟩, rfl⟩

/-- Of these lines the first two are loaded; with the third, the session answers what is wrong. -/
theorem loadFeed_lines_sample :
    (∃ r, (store {} "t" { schema := [.numeric, .text] }).loadFeed true "t"
      (.ok ⟨["n,v\n", "+07, a\r\n"], none⟩) = .ok r) ∧
    (store {} "t" { schema := [.numeric, .text] }).loadFeed true "t"
      (.ok ⟨["n,v\n", "+07, a\r\n", "\n"], none⟩) = .error (.load "t" (.recordWidth 1 2)) := by
  have hbound := table_store_self {} "t" { schema := [.numeric, .text] }
  have hseven : Numeral.Fills ⟨false, "07"⟩ "+07" :=
    ⟨by decide, by decide, "+", [], by decide, by decide, by decide, by decide⟩
  have hheader (rest : List Text) : Feed.HeaderFits [.numeric, .text] true ("n,v\n" :: rest) := by
    intro line hline
    obtain rfl := Option.some.inj hline
    decide +kernel
  have hrecord : Storage.Record.IsRecord [.numeric, .text]
      (Storage.Record.fieldsOf "+07, a\r\n") := by
    have hfields : Storage.Record.fieldsOf "+07, a\r\n" = ["+07", " a"] := by decide +kernel
    rw [hfields]
    exact .cons (.numeric hseven (by decide)) (.cons (.text _) .nil)
  constructor
  · exact (loadFeed_lines hbound true _).1.mpr
      ⟨hheader _, fun _ hline => List.mem_singleton.mp hline ▸ hrecord⟩
  · refine ((loadFeed_lines hbound true _).2.2 _).mpr ?_
    exact @Feed.Refuses.record _ _ _ _ ["+07, a\r\n"] [] "\n" _ (hheader _) rfl
      (List.forall_mem_singleton.mpr hrecord) (.width (by decide +kernel))

end Session

end TableAlgebra
