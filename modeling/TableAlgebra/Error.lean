import TableAlgebra.Column
import TableAlgebra.Command.Fault
import TableAlgebra.Kind
import TableAlgebra.Storage.Fault
import TableAlgebra.Text.Numeral

/-!
# Errors

Everything that can go wrong, by cause, with one wording for each. `isReported` tells the errors
that a session answers for from those that are faults of the values handed to it. The message of an
error about a number has the number in it, so a number too long to be written makes another error
(`citing`).
-/

namespace TableAlgebra

inductive Error where
  | command (fault : Command.Fault) (place : Command.Place)
  | noSuchTable (name : Text)
  | columnOutOfRange (column : ColumnRef)
  | rowOutOfRange (index : Int)
  | unknownType (tag : Text)
  | unknownComparator (symbol : Text)
  | notInteger (text : Text)
  | headerWidth (found expected : Nat)
  | source (fault : Storage.LoadFault)
  | load (table : Text) (fault : Storage.LoadFault)
  | save (fault : Storage.SaveFault)
  | wrongPayload (kind : Kind) (shown : Text)
  | tooManyDigits (count : Nat)
  | integerTooLong
  | nullInPath
  | unencodable (what : Text.Utf8.Unencodable)
  | undecodable (fault : Text.Utf8.Fault)
  | limitTooLow
  | missingText
  deriving Repr, DecidableEq

namespace Error

def message : Error → Text
  | command f p => f.message p
  | noSuchTable t => "The table \"" ++ t ++ "\" does not exist."
  | columnOutOfRange c => "The column \"" ++ c.text ++ "\" cannot be reached."
  | rowOutOfRange i => "Row " ++ .ofInt i ++ " is out of range"
  | unknownType t => "Unknown data type: " ++ t
  | unknownComparator s => "Unknown comparator: " ++ s
  | notInteger t => "Cannot convert '" ++ t ++ "' to int"
  | headerWidth n m => "Header has " ++ .ofNat n ++ " column(s), table has " ++ .ofNat m
  | source f => f.message
  | load t f => "Unable to load " ++ t ++ ": " ++ f.message
  | save f => f.message
  | wrongPayload .numeric v => "NUMERIC cell needs an int, got " ++ v
  | wrongPayload .text v => "TEXT cell needs a str, got " ++ v
  | tooManyDigits n =>
    "Exceeds the limit (4300 digits) for integer string conversion: value has " ++ .ofNat n ++
      " digits; use sys.set_int_max_str_digits() to increase the limit"
  | integerTooLong =>
    "Exceeds the limit (4300 digits) for integer string conversion; " ++
      "use sys.set_int_max_str_digits() to increase the limit"
  | nullInPath => "embedded null byte"
  | unencodable u => u.message
  | undecodable f => f.message
  | limitTooLow => "Python int too large to convert to C ssize_t"
  | missingText => "list index out of range"

/-- The error is an answer of the session to a command, and not a fault of a value. -/
def isReported : Error → Bool
  | rowOutOfRange _ | wrongPayload .. | tooManyDigits _ | integerTooLong | nullInPath
  | unencodable _ | undecodable _ | limitTooLow | missingText => false
  | _ => true

/-- The error whose message has a number in it. -/
def citing (n : Int) (e : Error) : Error := if Text.Numeral.isShort n then e else integerTooLong

def noColumn (i : Int) : Error := citing i (columnOutOfRange (.index i))

def noRow (i : Int) : Error := citing i (rowOutOfRange i)

theorem citing_of_isShort {n : Int} (h : Text.Numeral.isShort n = true) (e : Error) :
    citing n e = e := if_pos h

theorem citing_of_isLong {n : Int} (h : Text.Numeral.bound Text.Numeral.maxDigits ≤ n.natAbs)
    (e : Error) : citing n e = integerTooLong :=
  if_neg (Bool.eq_false_iff.mp (Text.Numeral.isShort_eq_false_iff.mpr h))

theorem noColumn_eq (i : Int) : noColumn i =
    if i.natAbs < Text.Numeral.bound Text.Numeral.maxDigits then columnOutOfRange (.index i)
    else integerTooLong := by
  split
  · next h => exact citing_of_isShort (Text.Numeral.isShort_iff.mpr h) _
  · next h => exact citing_of_isLong (Nat.not_lt.mp h) _

end Error

/-! ### Type tags -/

/-- The kind that a type tag declares. -/
def Kind.read (tag : Text) : Except Error Kind :=
  match Kind.ofTag? tag with
  | some k => .ok k
  | none => .error (.unknownType tag)

/-- The schema that type tags declare. -/
def Kind.readAll (tags : List Text) : Except Error Schema := tags.mapM Kind.read

/-! ### Results -/

theorem map_eq_ok {ε α β : Type} {f : α → β} {x : Except ε α} {b : β} :
    x.map f = .ok b ↔ ∃ a, x = .ok a ∧ f a = b := by
  cases x with
  | error e => exact ⟨fun h => (nomatch h), fun ⟨_, h, _⟩ => (nomatch h)⟩
  | ok a => exact ⟨fun h => ⟨a, rfl, Except.ok.inj h⟩, fun ⟨_, h, e⟩ => Except.ok.inj h ▸ e ▸ rfl⟩

theorem map_eq_error {ε α β : Type} {f : α → β} {x : Except ε α} {e : ε} :
    x.map f = .error e ↔ x = .error e := by
  cases x with
  | error e' => exact ⟨fun h => Except.error.inj h ▸ rfl, fun h => Except.error.inj h ▸ rfl⟩
  | ok a => exact ⟨fun h => (nomatch h), fun h => (nomatch h)⟩

/-- A value that is there under a condition, and otherwise an error. -/
def okIf {ε α : Type} (p : Bool) (a : α) (e : ε) : Except ε α := if p then .ok a else .error e

theorem map_okIf {ε α β : Type} (f : α → β) (p : Bool) (a : α) (e : ε) :
    (okIf p a e).map f = okIf p (f a) e := by
  cases p <;> rfl

/-- Values that are all there under one condition each, with one error for them all. -/
theorem mapM_okIf {ε α β : Type} (p : α → Bool) (f : α → β) (e : ε) (xs : List α) :
    xs.mapM (fun x => okIf (p x) (f x) e) = okIf (xs.all p) (xs.map f) e := by
  induction xs with
  | nil => rfl
  | cons x xs ih =>
    rw [List.mapM_cons, ih, List.all_cons]
    cases p x
    · rfl
    · cases xs.all p <;> rfl

theorem filterAuxM_okIf {ε α : Type} (p f : α → Bool) (e : ε) (xs acc : List α) :
    xs.filterAuxM (fun x => okIf (p x) (f x) e) acc =
      okIf (xs.all p) ((xs.filter f).reverse ++ acc) e := by
  induction xs generalizing acc with
  | nil => rfl
  | cons x xs ih =>
    rw [List.filterAuxM, List.all_cons, List.filter_cons]
    cases p x
    · rfl
    · show xs.filterAuxM _ (bif f x then x :: acc else acc) = _
      rw [ih]
      cases f x
      · rfl
      · rw [cond_true, if_pos rfl, List.reverse_cons, List.append_assoc]
        rfl

/-- Tests that can all be made under one condition each, with one error for them all. -/
theorem filterM_okIf {ε α : Type} (p f : α → Bool) (e : ε) (xs : List α) :
    xs.filterM (fun x => okIf (p x) (f x) e) = okIf (xs.all p) (xs.filter f) e := by
  rw [List.filterM, filterAuxM_okIf, List.append_nil]
  cases xs.all p
  · rfl
  · exact congrArg Except.ok (List.reverse_reverse _)

end TableAlgebra
