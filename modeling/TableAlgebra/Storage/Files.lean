import TableAlgebra.Storage.Fault
import TableAlgebra.Storage.Path

/-!
# Files

A tree of directories and files, seen from a working directory. Canonical paths are looked up name
by name; a single dot stays where it is, two dots go up. Nothing can be looked up in a read-only
directory. Reading and writing say what is wrong with a path that does not lead to a file. A file
may keep no more than the beginning of what is written to it. Writing one file leaves every other
one alone (`node?_put_of_ne`).
-/

namespace TableAlgebra.Storage

/-- A place in the tree: the names on the way from the root. -/
abbrev Location := List Text

inductive Node where
  | directory
  | file (content : ByteArray)

/-- Two nodes are compared by the bytes they hold. -/
instance : DecidableEq Node
  | .directory, .directory => isTrue rfl
  | .directory, .file _ => isFalse fun e => nomatch e
  | .file _, .directory => isFalse fun e => nomatch e
  | .file a, .file b =>
    match ByteArray.instDecidableEq a b with
    | isTrue h => isTrue (congrArg Node.file h)
    | isFalse h => isFalse fun e => h (Node.file.inj e)

/-- A file keeps so many bytes of what is written to it. Writing more fails, if there is a fault,
or else the rest is lost. -/
structure Quota where
  capacity : Nat
  fault : Option DeviceFault := none
  deriving DecidableEq

structure Files where
  nodes : List (Location × Node) := []
  readOnly : List Location := []
  quotas : List (Location × Quota) := []
  workDir : Location := []
  deriving DecidableEq

namespace Files

/-- What is at a location; the root is a directory. -/
def node? (fs : Files) (l : Location) : Option Node :=
  if l.isEmpty then some .directory else fs.nodes.lookup l

/-- Puts something at a location. -/
def put (fs : Files) (l : Location) (n : Node) : Files :=
  { fs with nodes := (l, n) :: fs.nodes.filter (·.1 != l) }

/-- A directory, if names may be looked up in it. -/
def search (fs : Files) (directory : Location) : Except PathCause Location :=
  if fs.readOnly.contains directory then .error .permissionDenied else .ok directory

/-- Goes through directories, from one of them, along names. -/
def walk (fs : Files) (base : Location) : List Text → Except PathCause Location
  | [] => .ok base
  | name :: names =>
    (fs.search base).bind fun base =>
      if name = "." then fs.walk base names
      else if name = ".." then fs.walk base.dropLast names
      else if Path.isTooLongName name then .error .nameTooLong
      else
        match fs.node? (base ++ [name]) with
        | some .directory => fs.walk (base ++ [name]) names
        | some (.file _) => .error .notDirectory
        | none => .error .notFound

/-- Where a path leads: into a directory and to a name in it, or to the directory itself. -/
structure Entry where
  directory : Location
  name : Option Text
  slash : Bool
  deriving Repr, DecidableEq

/-- The entry that a path leads to, whether or not something is there. -/
def entry (fs : Files) (path : Text) : Except PathCause Entry :=
  if path.isEmpty then .error .notFound
  else if Path.isTooLong path then .error .nameTooLong
  else
    let start := if Path.isAbsolute path then [] else fs.workDir
    let slash := Path.endsInSlash path
    match (Path.names path).getLast? with
    | none => .ok ⟨start, none, slash⟩
    | some name =>
      ((fs.walk start (Path.names path).dropLast).bind fs.search).map fun directory =>
        if name = "." then ⟨directory, none, slash⟩
        else if name = ".." then ⟨directory.dropLast, none, slash⟩
        else ⟨directory, some name, slash⟩

def Entry.location (e : Entry) : Location := e.directory ++ e.name.toList

/-- The name of an entry is one that no directory can hold. -/
def Entry.isTooLong (e : Entry) : Bool := e.name.any Path.isTooLongName

/-- What a path leads to. A slash at the end asks for a directory. -/
def find (fs : Files) (path : Text) : Except PathCause (Location × Node) :=
  (fs.entry path).bind fun e =>
    if e.isTooLong then .error .nameTooLong
    else
      match fs.node? e.location with
      | none => .error .notFound
      | some .directory => .ok (e.location, .directory)
      | some (.file content) =>
        if e.slash then .error .notDirectory else .ok (e.location, .file content)

def read (fs : Files) (path : Text) : Except PathCause ByteArray :=
  (fs.find path).bind fun found =>
    match found.2 with
    | .directory => .error .isDirectory
    | .file content => .ok content

/-- Something is at the path, and it may not be written. -/
def isReadOnly (fs : Files) (path : Text) : Bool :=
  match fs.find path with
  | .ok (l, _) => fs.readOnly.contains l
  | .error _ => false

/-- The location of the file that is written at a path. A path that ends in a slash can only lead
to a directory, whatever its last name is. -/
def target (fs : Files) (path : Text) : Except PathCause Location :=
  (fs.entry path).bind fun e =>
    if e.name.isNone || e.slash then .error .isDirectory
    else if e.isTooLong then .error .nameTooLong
    else if fs.node? e.location = some .directory then .error .isDirectory
    else .ok e.location

/-- The file keeps whatever is written to it. -/
def isOrdinary (fs : Files) (l : Location) : Bool := (fs.quotas.lookup l).isNone

/-- Writes a file anew, and tells what fault cut it short, if one did. -/
def write (fs : Files) (l : Location) (content : ByteArray) : Option DeviceFault × Files :=
  match (fs.quotas.lookup l).filter fun q => q.capacity < content.size with
  | none => (none, fs.put l (.file content))
  | some q => (q.fault, fs.put l (.file (content.extract 0 q.capacity)))

/-! ### Laws -/

theorem lookup_filter_of_ne {l m : Location} (h : l ≠ m) (ns : List (Location × Node)) :
    (ns.filter (·.1 != m)).lookup l = ns.lookup l := by
  induction ns with
  | nil => rfl
  | cons n ns ih =>
    by_cases hn : n.1 = m
    · have hl : (l == n.1) = false := beq_eq_false_iff_ne.mpr (hn ▸ h)
      rw [List.filter_cons_of_neg (by simp [hn]), ih, List.lookup_cons, hl]
    · rw [List.filter_cons_of_pos (by simp [hn]), List.lookup_cons, List.lookup_cons, ih]

theorem node?_put_of_ne {fs : Files} {l m : Location} (h : l ≠ m) (n : Node) :
    (fs.put m n).node? l = fs.node? l := by
  unfold node?
  split
  · rfl
  · have hl : (l == m) = false := beq_eq_false_iff_ne.mpr h
    rw [put, List.lookup_cons, hl]
    exact lookup_filter_of_ne h fs.nodes

theorem node?_put_self {fs : Files} {l : Location} (h : l ≠ []) (n : Node) :
    (fs.put l n).node? l = some n := by
  rw [node?, if_neg (by simpa using h), put, List.lookup_cons_self]

end Files

end TableAlgebra.Storage
