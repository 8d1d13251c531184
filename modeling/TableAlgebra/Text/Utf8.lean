import TableAlgebra.Text.Quoted

/-!
# UTF-8

Bytes become text when they are well-formed UTF-8. Otherwise the first ill-formed sequence is
named: the bytes it covers and what is wrong with it. A text becomes bytes unless a surrogate is in
it; the first of them is named, with those right after it. The bytes of a string give its text back
(`decode_toUTF8`), and are those of its text (`encode_ofString`).

Names of files are in loose UTF-8: a byte that is part of no character is written as a surrogate,
from U+DC80 on. Every list of bytes is a text in this way (`decodeLoose`).
-/

namespace TableAlgebra.Text.Utf8

/-- What is wrong with a byte sequence. -/
inductive Reason where
  | invalidStart
  | invalidContinuation
  | unexpectedEnd
  deriving Repr, DecidableEq

def Reason.message : Reason → Text
  | .invalidStart => "invalid start byte"
  | .invalidContinuation => "invalid continuation byte"
  | .unexpectedEnd => "unexpected end of data"

/-- The first ill-formed sequence: the bytes from `start` up to `stop`, of which `first` is the
first. It is `open` when more bytes after the last one could have continued it. -/
structure Fault where
  start : Nat
  stop : Nat
  first : UInt8
  reason : Reason
  isOpen : Bool := false
  deriving Repr, DecidableEq

/-- The positions from `start` up to `stop`. -/
def positions (start stop : Nat) : Text :=
  if stop = start + 1 then ofNat start else ofNat start ++ "-" ++ ofNat (stop - 1)

def Fault.message (f : Fault) : Text :=
  let what : Text := if f.stop = f.start + 1 then "byte 0x" ++ hex 2 f.first.toNat else "bytes"
  "'utf-8' codec can't decode " ++ what ++ " in position " ++ positions f.start f.stop ++ ": " ++
    f.reason.message

def isContinuation (b : UInt8) : Bool := 0x80 ≤ b && b ≤ 0xBF

/-- The second byte may follow the first: no overlong form, no surrogate, nothing past the last code
point. -/
def secondFits (first second : UInt8) : Bool :=
  isContinuation second &&
    (first != 0xE0 || 0xA0 ≤ second) && (first != 0xED || second < 0xA0) &&
    (first != 0xF0 || 0x90 ≤ second) && (first != 0xF4 || second < 0x90)

/-- How many bytes the sequence has that starts with this byte. -/
def width? (first : UInt8) : Option Nat :=
  if first < 0x80 then some 1
  else if first < 0xC2 then none
  else if first < 0xE0 then some 2
  else if first < 0xF0 then some 3
  else if first < 0xF5 then some 4
  else none

/-- How many of the bytes after the first continue the sequence: at most `n`. -/
def continuations (first : UInt8) (n : Nat) (bs : List UInt8) : Nat :=
  match bs.take n with
  | [] => 0
  | b :: rest => if secondFits first b then 1 + (rest.takeWhile isContinuation).length else 0

/-- The first fault at or after a position; where there is none, the end counts as one. -/
def firstFault (pos : Nat) : List UInt8 → Fault
  | [] => ⟨pos, pos, 0, .unexpectedEnd, true⟩
  | first :: bs =>
    match width? first with
    | none => ⟨pos, pos + 1, first, .invalidStart, false⟩
    | some w =>
      let n := continuations first (w - 1) bs
      if n = w - 1 then firstFault (pos + w) (bs.drop (w - 1))
      else if n = bs.length then ⟨pos, pos + 1 + n, first, .unexpectedEnd, true⟩
      else
        let cutSurrogate := first = 0xED && bs.length = 1 && bs.all isContinuation
        ⟨pos, pos + 1 + n, first, .invalidContinuation, cutSurrogate⟩
  termination_by bs => bs.length
  decreasing_by simp only [List.length_drop, List.length_cons]; omega

/-- The text that bytes write, or the first fault. -/
def decode (bytes : ByteArray) : Except Fault Text :=
  match String.fromUTF8? bytes with
  | some s => .ok (ofString s)
  | none => .error (firstFault 0 bytes.data.toList)

/-! ### From texts to bytes -/

/-- The first code points that cannot be written: those from `start` up to `stop`, of which `first`
is the first. -/
structure Unencodable where
  start : Nat
  stop : Nat
  first : Point
  deriving Repr, DecidableEq

def Unencodable.message (u : Unencodable) : Text :=
  let what : Text :=
    if u.stop = u.start + 1 then "character '\\u" ++ hex 4 u.first.number ++ "'" else "characters"
  "'utf-8' codec can't encode " ++ what ++ " in position " ++ positions u.start u.stop ++
    ": surrogates not allowed"

/-- The bytes of a text whose code points have bytes. A code point without any cannot be written,
nor can surrogates right after it. -/
def encodeBy (bytes? : Point → Option (List UInt8)) (t : Text) : Except Unencodable ByteArray :=
  match t.dropWhile fun p => (bytes? p).isSome with
  | [] => .ok (t.flatMap fun p => (bytes? p).getD []).toByteArray
  | p :: rest =>
    let start := t.length - (p :: rest).length
    .error ⟨start, start + ((p :: rest).takeWhile Point.isSurrogate).length, p⟩

/-- The bytes of a character; a surrogate has none. -/
def bytes? : Point → Option (List UInt8)
  | .char c => some (String.utf8EncodeChar c)
  | .surrogate _ => none

def encode (t : Text) : Except Unencodable ByteArray := encodeBy bytes? t

/-! ### Loose UTF-8 -/

/-- The bytes of a code point: a surrogate from U+DC80 to U+DCFF is one byte. -/
def looseBytes? : Point → Option (List UInt8)
  | .char c => some (String.utf8EncodeChar c)
  | p => if 0xDC80 ≤ p.number && p.number ≤ 0xDCFF then some [(p.number - 0xDC00).toUInt8] else none

/-- The bytes of a text in loose UTF-8, or what cannot be written of it. -/
def encodeLoose (t : Text) : Except Unencodable ByteArray := encodeBy looseBytes? t

/-- The number of bytes of a text in loose UTF-8. -/
def looseSize (t : Text) : Nat := (t.flatMap fun p => (looseBytes? p).getD []).length

/-- The surrogate that stands for a byte. -/
def ofByte (b : UInt8) : Point := .ofNat (0xDC00 + b.toNat)

/-- The code point that a well-formed sequence of bytes writes. -/
def ofSequence (first : UInt8) (rest : List UInt8) : Point :=
  let lead :=
    if rest.isEmpty then first.toNat
    else first.toNat % Nat.pow 2 (6 - rest.length)
  .ofNat (rest.foldl (fun n b => n * 64 + b.toNat % 64) lead)

/-- The text of bytes, of which some are part of no character. -/
def pieces : List UInt8 → Text
  | [] => []
  | first :: bs =>
    match width? first with
    | none => ofByte first :: pieces bs
    | some w =>
      if continuations first (w - 1) bs = w - 1 then
        ofSequence first (bs.take (w - 1)) :: pieces (bs.drop (w - 1))
      else ofByte first :: pieces bs
  termination_by bs => bs.length
  decreasing_by
    · exact Nat.lt_succ_self _
    · simp only [List.length_drop, List.length_cons]; omega
    · exact Nat.lt_succ_self _

def decodeLoose (bytes : ByteArray) : Text :=
  match decode bytes with
  | .ok t => t
  | .error _ => pieces bytes.data.toList

/-! ### Laws -/

theorem decode_toUTF8 (s : String) : decode s.toUTF8 = .ok (ofString s) := by
  have h : String.fromUTF8? s.toUTF8 = some s := dif_pos s.isValidUTF8
  rw [decode, h]

theorem encodeBy_ofString {f : Point → Option (List UInt8)}
    (h : ∀ c, f (.char c) = some (String.utf8EncodeChar c)) (s : String) :
    encodeBy f (ofString s) = .ok s.toUTF8 := by
  have hs : ∀ c, (f (.char c)).isSome = true := fun c => by rw [h]; rfl
  have hd : ∀ cs : List Char, (cs.map Point.char).dropWhile (fun p => (f p).isSome) = [] := by
    intro cs
    induction cs with
    | nil => rfl
    | cons c cs ih => rw [List.map_cons, List.dropWhile_cons, hs, if_pos rfl, ih]
  have hb : (ofString s).flatMap (fun p => (f p).getD []) =
      s.toList.flatMap String.utf8EncodeChar := by
    rw [ofString, List.flatMap_map]
    exact congrArg (List.flatMap · s.toList) (funext fun c => by rw [h]; rfl)
  rw [encodeBy, hb, ofString, hd]
  exact congrArg Except.ok String.utf8Encode_toList

theorem encode_ofString (s : String) : encode (ofString s) = .ok s.toUTF8 :=
  encodeBy_ofString (fun _ => rfl) s

theorem encodeLoose_ofString (s : String) : encodeLoose (ofString s) = .ok s.toUTF8 :=
  encodeBy_ofString (fun _ => rfl) s

theorem decodeLoose_toUTF8 (s : String) : decodeLoose s.toUTF8 = ofString s := by
  rw [decodeLoose, decode_toUTF8]

end TableAlgebra.Text.Utf8
