import Mathlib.Data.List.TakeWhile
import TableAlgebra.Proofs.Text.Filled
import TableAlgebra.Storage.Source

/-!
# Failures that are not reported

Most errors are answers to a command. The others are faults of the values that a computation meets,
and a caller that waits for answers does not expect them. Here are the computations on fields,
records, sources and paths that can end in one, with the exact conditions.

* `Unreported x`, `Reported x`       the computation ends in such an error, or cannot;
* `Numeral.IsLong`                   the field is a numeral of too many digits;
* `Path.IsBarred`                    the code point is in no path;
* `unreported_readTable`             a source is refused in this way for a number that is too long;
* `unreported_canonical`             a path, for a code point that is barred.
-/

namespace TableAlgebra

/-- The computation ends in an error that is no answer to a command. -/
def Unreported {α : Type} (x : Except Error α) : Prop := ∃ e, x = .error e ∧ e.isReported = false

abbrev Reported {α : Type} (x : Except Error α) : Prop := FailsWith (fun e => e.isReported = true) x

section
variable {α β : Type}

theorem reported_iff {x : Except Error α} : Reported x ↔ ¬Unreported x := by
  constructor
  · rintro h ⟨e, he, hr⟩
    rw [h e he] at hr
    cases hr
  · intro h e he
    exact Bool.not_eq_false _ ▸ fun hr => h ⟨e, he, hr⟩

theorem not_unreported_ok (a : α) : ¬Unreported (.ok a) := fun ⟨_, h, _⟩ => nomatch h

theorem unreported_error {e : Error} :
    Unreported (.error e : Except Error α) ↔ e.isReported = false := by
  constructor
  · rintro ⟨_, h, he⟩
    cases h
    exact he
  · exact fun he => ⟨e, rfl, he⟩

theorem unreported_bind {x : Except Error α} {f : α → Except Error β} :
    Unreported (x >>= f) ↔ Unreported x ∨ ∃ a, x = .ok a ∧ Unreported (f a) := by
  constructor
  · rintro ⟨e, h, he⟩
    rcases bind_eq_error.mp h with h | ⟨a, ha, h⟩
    · exact Or.inl ⟨e, h, he⟩
    · exact Or.inr ⟨a, ha, e, h, he⟩
  · rintro (⟨e, h, he⟩ | ⟨a, ha, e, h, he⟩)
    · exact ⟨e, bind_eq_error.mpr (Or.inl h), he⟩
    · exact ⟨e, bind_eq_error.mpr (Or.inr ⟨a, ha, h⟩), he⟩

theorem Reported.bind_iff {x : Except Error α} (h : Reported x) {f : α → Except Error β} :
    Unreported (x >>= f) ↔ ∃ a, x = .ok a ∧ Unreported (f a) :=
  unreported_bind.trans (or_iff_right (reported_iff.mp h))

theorem unreported_bind_pure {x : Except Error α} {f : α → β} :
    Unreported (x >>= fun a => .ok (f a)) ↔ Unreported x :=
  unreported_bind.trans (or_iff_left fun ⟨_, _, h⟩ => not_unreported_ok _ h)

theorem unreported_map {x : Except Error α} {f : α → β} : Unreported (x.map f) ↔ Unreported x := by
  constructor
  · exact fun ⟨e, h, he⟩ => ⟨e, map_eq_error.mp h, he⟩
  · exact fun ⟨e, h, he⟩ => ⟨e, map_eq_error.mpr h, he⟩

/-- Another wording of the errors does not matter. -/
theorem unreported_mapError {x : Except Error α} {f : Error → Error}
    (hf : ∀ e, (f e).isReported = e.isReported) : Unreported (x.mapError f) ↔ Unreported x := by
  constructor
  · rintro ⟨e, h, he⟩
    obtain ⟨e', h', rfl⟩ := mapError_eq_error.mp h
    exact ⟨e', h', hf e' ▸ he⟩
  · exact fun ⟨e, h, he⟩ => ⟨f e, mapError_eq_error.mpr ⟨e, h, rfl⟩, (hf e).trans he⟩

theorem unreported_mapM {f : α → Except Error β} {xs : List α} :
    Unreported (xs.mapM f) ↔ ∃ before x after, xs = before ++ x :: after ∧
      (∀ y ∈ before, ∃ b, f y = .ok b) ∧ Unreported (f x) := by
  constructor
  · rintro ⟨e, h, he⟩
    obtain ⟨before, x, after, hxs, hok, hx⟩ := mapM_eq_error.mp h
    exact ⟨before, x, after, hxs, hok, e, hx, he⟩
  · rintro ⟨before, x, after, hxs, hok, e, hx, he⟩
    exact ⟨e, mapM_eq_error.mpr ⟨before, x, after, hxs, hok, hx⟩, he⟩

end

/-! ### Fields -/

/-- The field is a numeral of more than `maxDigits` digits. -/
def Text.Numeral.IsLong (field : Text) : Prop :=
  ∃ num, ofField? field = some num ∧ maxDigits < num.digits.length

theorem Cell.unreported_read {k : Kind} {field : Text} :
    Unreported (read k field) ↔ k = .numeric ∧ Text.Numeral.IsLong field := by
  cases k with
  | text =>
    refine iff_of_false (not_unreported_ok _) fun h => ?_
    cases h.1
  | numeric =>
    rw [read, unreported_map]
    constructor
    · rintro ⟨e, h, he⟩
      rcases readInt_eq_error.mp h with ⟨-, rfl⟩ | ⟨num, hfills, hlong, rfl⟩
      · cases he
      · exact ⟨rfl, num, Text.Numeral.ofField?_eq_some.mpr hfills, hlong⟩
    · rintro ⟨-, num, hnum, hlong⟩
      have hfills := Text.Numeral.ofField?_eq_some.mp hnum
      exact ⟨_, readInt_eq_error.mpr (Or.inr ⟨num, hfills, hlong, rfl⟩), rfl⟩

namespace Storage

/-! ### Records -/

namespace Record

theorem readCells_eq_mapM (schema : Schema) (fields : List Text) :
    readCells schema (fields.map some) =
      (schema.zip fields).mapM fun p => readCell p.1 (some p.2) := by
  induction schema generalizing fields with
  | nil => rfl
  | cons k ks ih =>
    cases fields with
    | nil => rfl
    | cons f fs =>
      rw [List.zip_cons_cons, mapM_cons, ← ih fs]
      rfl

theorem unreported_readCell {k : Kind} {field : Text} :
    Unreported (readCell k (some field)) ↔ k = .numeric ∧ Text.Numeral.IsLong field := by
  rw [← Cell.unreported_read]
  refine unreported_mapError fun e => ?_
  cases e <;> rfl

/-- As many fields as columns, and one for a number is too long; the fields before it are well. -/
def HasLongNumber (schema : Schema) (line : Text) : Prop :=
  (split line).length = schema.length ∧ ∃ before field after,
    schema.zip (split line) = before ++ (.numeric, field) :: after ∧
    (∀ p ∈ before, ∃ c, Cell.read p.1 p.2 = .ok c) ∧ Text.Numeral.IsLong field

theorem unreported_readLine {schema : Schema} {line : Text} :
    Unreported (readLine schema line) ↔ HasLongNumber schema line := by
  rw [readLine, readRow, List.length_map, HasLongNumber]
  by_cases hl : (split line).length = schema.length
  · rw [if_pos hl, readCells_eq_mapM, unreported_mapM]
    constructor
    · rintro ⟨before, ⟨k, field⟩, after, hzip, hok, hx⟩
      obtain ⟨rfl, hlong⟩ := unreported_readCell.mp hx
      refine ⟨hl, before, field, after, hzip, fun p hp => ?_, hlong⟩
      obtain ⟨c, hc⟩ := hok p hp
      exact ⟨c, mapError_eq_ok.mp hc⟩
    · rintro ⟨_, before, field, after, hzip, hok, hlong⟩
      refine ⟨before, _, after, hzip, fun p hp => ?_, unreported_readCell.mpr ⟨rfl, hlong⟩⟩
      obtain ⟨c, hc⟩ := hok p hp
      exact ⟨c, mapError_eq_ok.mpr hc⟩
  · rw [if_neg hl]
    exact iff_of_false (fun ⟨_, h, he⟩ => by cases h; cases he) fun h => hl h.1

end Record

/-! ### Sources -/

namespace Feed

/-- The header is well, and so are the records up to one with a number that is too long. -/
def HasLongNumber (feed : Feed) (table : Text) (schema : Schema) (headed : Bool) : Prop :=
  ∃ header before line after,
    splitHeader table schema headed feed.lines = .ok (header, before ++ line :: after) ∧
    (∀ l ∈ before, ∃ r, Record.readLine schema l = .ok r) ∧ Record.HasLongNumber schema line

theorem reported_splitHeader (table : Text) (schema : Schema) (headed : Bool) (lines : List Text) :
    Reported (splitHeader table schema headed lines) := by
  unfold splitHeader
  split
  · dsimp only
    split
    · exact failsWith_ok _
    · exact failsWith_error rfl
  · exact failsWith_ok _

theorem unreported_readTable {feed : Feed} {table : Text} {schema : Schema} {headed : Bool} :
    Unreported (feed.readTable table schema headed) ↔ feed.HasLongNumber table schema headed := by
  rw [readTable, (reported_splitHeader table schema headed feed.lines).bind_iff]
  constructor
  · rintro ⟨⟨header, lines⟩, hh, h⟩
    rcases unreported_bind.mp h with h | ⟨rows, _, h⟩
    · obtain ⟨before, line, after, rfl, hok, hline⟩ := unreported_mapM.mp h
      exact ⟨header, before, line, after, hh, hok, Record.unreported_readLine.mp hline⟩
    · obtain ⟨e, h, he⟩ := h
      split at h
      · cases h
      · cases h
        cases he
  · rintro ⟨header, before, line, after, hh, hok, hline⟩
    refine ⟨_, hh, unreported_bind.mpr (Or.inl ?_)⟩
    exact unreported_mapM.mpr ⟨before, line, after, rfl, hok, Record.unreported_readLine.mpr hline⟩

end Feed

/-! ### Paths -/

namespace Path

/-- No path holds the code point: it is the null character, or a surrogate that stands for no
byte. -/
def IsBarred (p : Text.Point) : Prop :=
  p = .char '\x00' ∨ p.isSurrogate = true ∧ ¬(0xDC80 ≤ p.number ∧ p.number ≤ 0xDCFF)

theorem zero_ne_ofNat {n : Nat} (h : 0 < n) (hl : n < 256) : (0 : UInt8) ≠ UInt8.ofNat n := by
  intro e
  have hn := congrArg UInt8.toNat e
  rw [UInt8.toNat_ofNat_of_lt' hl] at hn
  exact absurd hn (Nat.ne_of_lt h)

theorem zero_mem_utf8EncodeChar {c : Char} (h : 0 ∈ String.utf8EncodeChar c) : c = '\x00' := by
  rw [String.utf8EncodeChar] at h
  split at h
  · rw [List.mem_singleton] at h
    by_cases hz : c.val.toNat = 0
    · exact Char.ext (UInt32.toNat_inj.mp hz)
    · exact absurd h (zero_ne_ofNat (by omega) (by omega))
  · split at h
    · simp only [List.mem_cons, List.not_mem_nil, or_false] at h
      rcases h with h | h <;> exact absurd h (zero_ne_ofNat (by omega) (by omega))
    · split at h
      · simp only [List.mem_cons, List.not_mem_nil, or_false] at h
        rcases h with h | h | h <;> exact absurd h (zero_ne_ofNat (by omega) (by omega))
      · simp only [List.mem_cons, List.not_mem_nil, or_false] at h
        rcases h with h | h | h | h <;> exact absurd h (zero_ne_ofNat (by omega) (by omega))

theorem looseBytes?_eq_none {p : Text.Point} : Text.Utf8.looseBytes? p = none ↔
    p.isSurrogate = true ∧ ¬(0xDC80 ≤ p.number ∧ p.number ≤ 0xDCFF) := by
  cases p with
  | char c =>
    refine iff_of_false (fun h => ?_) fun h => ?_
    · cases h
    · cases h.1
  | surrogate n =>
    rw [Text.Utf8.looseBytes?, ite_eq_right_iff, Bool.and_eq_true, decide_eq_true_iff,
      decide_eq_true_iff]
    · exact ⟨fun h => ⟨rfl, fun hn => nomatch h hn⟩, fun h hn => absurd hn h.2⟩
    · exact fun c hc => nomatch hc

abbrev bytesOf (p : Text.Point) : List UInt8 := (Text.Utf8.looseBytes? p).getD []

theorem zero_mem_bytesOf {p : Text.Point} : 0 ∈ bytesOf p ↔ p = .char '\x00' := by
  constructor
  · intro h
    cases p with
    | char c => exact congrArg Text.Point.char (zero_mem_utf8EncodeChar h)
    | surrogate n =>
      rw [bytesOf, Text.Utf8.looseBytes?] at h
      · split at h
        · next hn =>
          rw [Bool.and_eq_true, decide_eq_true_iff, decide_eq_true_iff] at hn
          exact absurd (List.mem_singleton.mp h) (zero_ne_ofNat (by omega) (by omega))
        · cases h
      · exact fun c hc => nomatch hc
  · rintro rfl
    decide

theorem contains_zero_iff {path : Text} :
    (path.flatMap bytesOf).toByteArray.data.contains 0 = true ↔ .char '\x00' ∈ path := by
  rw [List.data_toByteArray, Array.contains_iff_mem, List.mem_toArray, List.mem_flatMap]
  constructor
  · rintro ⟨p, hp, hz⟩
    exact zero_mem_bytesOf.mp hz ▸ hp
  · exact fun h => ⟨_, h, zero_mem_bytesOf.mpr rfl⟩

theorem dropWhile_eq_nil {path : Text} :
    (path.dropWhile fun p => (Text.Utf8.looseBytes? p).isSome) = [] ↔
      ∀ p ∈ path, Text.Utf8.looseBytes? p ≠ none := by
  rw [List.dropWhile_eq_nil_iff]
  exact forall₂_congr fun p _ => Option.isSome_iff_ne_none

theorem unreported_canonical {path : Text} :
    Unreported (canonical path) ↔ ∃ p ∈ path, IsBarred p := by
  rw [canonical, Text.Utf8.encodeLoose, Text.Utf8.encodeBy]
  cases hd : path.dropWhile fun p => (Text.Utf8.looseBytes? p).isSome with
  | cons p rest =>
    refine iff_of_true ⟨_, rfl, rfl⟩ ?_
    have hsome : ¬∀ p ∈ path, Text.Utf8.looseBytes? p ≠ none := fun h => by
      rw [dropWhile_eq_nil.mpr h] at hd
      cases hd
    obtain ⟨q, hq⟩ := Classical.not_forall.mp hsome
    obtain ⟨hmem, hnone⟩ := Classical.not_imp.mp hq
    exact ⟨q, hmem, Or.inr (looseBytes?_eq_none.mp (Classical.not_not.mp hnone))⟩
  | nil =>
    dsimp only
    split
    · next hz => exact iff_of_true ⟨_, rfl, rfl⟩ ⟨_, contains_zero_iff.mp hz, Or.inl rfl⟩
    · next hz =>
      refine iff_of_false (not_unreported_ok _) ?_
      rintro ⟨p, hp, rfl | hbar⟩
      · exact hz (contains_zero_iff.mpr hp)
      · exact dropWhile_eq_nil.mp hd p hp (looseBytes?_eq_none.mpr hbar)

end Path

end Storage

end TableAlgebra
