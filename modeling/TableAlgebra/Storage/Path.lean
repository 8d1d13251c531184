import TableAlgebra.Error
import TableAlgebra.Text.Lines

/-!
# Paths

A path is names with slashes between them. It is taken from a base directory unless it starts at
the root. On disk it is bytes: the same bytes written in another way are the same path, and
`canonical` picks one way. The path of a string is canonical unless a null character is in it
(`canonical_ofString`).
-/

namespace TableAlgebra.Storage.Path

def isAbsolute (path : Text) : Bool := path.head? = some '/'

def endsInSlash (path : Text) : Bool := path.getLast? = some '/'

/-- The path as seen from a base directory; an empty base changes nothing. -/
def resolve (base path : Text) : Text :=
  if base.isEmpty || isAbsolute path then path
  else if endsInSlash base then base ++ path
  else base ++ "/" ++ path

def names (path : Text) : List Text := (Text.splitOn '/' path).filter fun name => !name.isEmpty

/-- A name that a directory cannot hold: one of more than 255 bytes. -/
def isTooLongName (name : Text) : Bool := 255 < Text.Utf8.looseSize name

/-- A path that cannot be looked up: one of more than 4095 bytes. -/
def isTooLong (path : Text) : Bool := 4095 < Text.Utf8.looseSize path

/-- The path that is read from the bytes of a path. No path holds a null character. -/
def canonical (path : Text) : Except Error Text :=
  match Text.Utf8.encodeLoose path with
  | .error what => .error (.unencodable what)
  | .ok bytes =>
    if bytes.data.contains 0 then .error .nullInPath else .ok (Text.Utf8.decodeLoose bytes)

/-! ### Laws -/

theorem canonical_ofString {s : String} (h : s.toUTF8.data.contains 0 = false) :
    canonical (.ofString s) = .ok (.ofString s) := by
  rw [canonical, Text.Utf8.encodeLoose_ofString]
  dsimp only
  rw [h, Text.Utf8.decodeLoose_toUTF8]
  rfl

end TableAlgebra.Storage.Path
