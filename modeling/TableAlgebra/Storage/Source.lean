import TableAlgebra.Storage.Files
import TableAlgebra.Storage.Record
import TableAlgebra.Table

/-!
# Sources of tables

A source gives lines, one after the other, and may fail after some of them. A table is read from a
source against a schema: each line is a row, and the first one may be the header. The first fault
counts, be it of a record or of the source.
-/

namespace TableAlgebra.Storage

/-- The lines that a source gives, and the fault that comes after them, if there is one. -/
structure Feed where
  lines : List Text
  fault : Option LoadFault := none
  deriving Repr, DecidableEq

namespace Feed

/-- The lines of a text, each with its line end. -/
def linesOf (text : Text) : List Text := text.unifyLineEnds.textLines

/-- The lines that are known to be complete when the text breaks off. A carriage return at the end
may yet get a line feed, so its line is not complete. -/
def completeLines (text : Text) : List Text :=
  let sure := if text.getLast? = some '\r' then text.dropLast else text
  (linesOf sure).filter fun line => line.getLast? = some '\n'

def chunkSize : Nat := 8192

/-- The first fault in some bytes of a file; their end counts as one. -/
def faultIn (bytes : ByteArray) : Text.Utf8.Fault := Text.Utf8.firstFault 0 bytes.data.toList

def chunks (bytes : ByteArray) (n : Nat) : ByteArray := bytes.extract 0 (n * chunkSize)

/-- How many chunks come before the first one that has a fault whatever follows it. -/
def soundChunks? (bytes : ByteArray) : Option Nat :=
  (List.range (bytes.size / chunkSize + 1)).find? fun n =>
    !(faultIn (chunks bytes (n + 1))).isOpen

/-- The lines known to be complete in bytes that have no fault but at their end. -/
def linesBefore (bytes : ByteArray) : List Text :=
  let sound := Text.Utf8.decode (bytes.extract 0 (faultIn bytes).start)
  completeLines (sound.toOption.getD [])

/-- The lines of a file. One that is not UTF-8 gives those of the chunks before the one in which
this shows; a last sequence that is cut short shows only at the end. -/
def ofBytes (source : Text) (bytes : ByteArray) : Feed :=
  match Text.Utf8.decode bytes, soundChunks? bytes with
  | .ok text, _ => ⟨linesOf text, none⟩
  | .error _, some n =>
    ⟨linesBefore (chunks bytes n),
      some (.notUtf8 source (faultIn (chunks bytes (n + 1))).reason)⟩
  | .error f, none => ⟨linesBefore bytes, some (.notUtf8 source f.reason)⟩

/-- The lines of the file at a path, as seen from a base directory. -/
def ofPath (fs : Files) (base source : Text) : Except Error Feed :=
  let path := Path.resolve base source
  (Path.canonical path).map fun file =>
    match fs.read file with
    | .ok bytes => ofBytes source bytes
    | .error .notFound => ⟨[], some (.missing source)⟩
    | .error cause => ⟨[], some (.unreadable source ⟨cause, path⟩)⟩

/-- All the lines, if the source does not fail. -/
def toLines (feed : Feed) : Except Error (List Text) :=
  match feed.fault with
  | none => .ok feed.lines
  | some f => .error (.source f)

/-- The header and the lines after it. Without a line there is no header. -/
def splitHeader (table : Text) (schema : Schema) (headed : Bool) (lines : List Text) :
    Except Error (List Text × List Text) :=
  match headed, lines with
  | true, line :: lines =>
    let header := Record.split line
    if header.length = schema.length then .ok (header, lines)
    else .error (.source (.headerWidth header.length table schema.length))
  | _, lines => .ok ([], lines)

/-- The table that a source holds, against the schema of the table of that name. -/
def readTable (feed : Feed) (table : Text) (schema : Schema) (headed : Bool) :
    Except Error Table := do
  let (header, lines) ← splitHeader table schema headed feed.lines
  let rows ← lines.mapM (Record.readLine schema)
  match feed.fault with
  | none => return { schema, header, rows }
  | some f => .error (.source f)

end Feed

end TableAlgebra.Storage
