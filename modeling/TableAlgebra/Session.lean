import TableAlgebra.Algebra.Join
import TableAlgebra.Algebra.Project
import TableAlgebra.Algebra.Select
import TableAlgebra.Session.Catalog
import TableAlgebra.Storage.Source

/-!
# Sessions

A session holds named tables and works in a tree of files. Its operations take tables by name and
columns by reference: first the names are looked up, then the columns, then the operator runs.
What an operation answers is not stored.
-/

namespace TableAlgebra

open Storage (Feed Files Location)

structure Session where
  dataDir : Text := "."
  legacy : Bool := false
  tables : Catalog := {}
  files : Files := {}
  deriving DecidableEq

namespace Session

def table (s : Session) (name : Text) : Except Error Table :=
  match s.tables.find? name with
  | some t => .ok t
  | none => .error (.noSuchTable name)

def count (s : Session) (name : Text) : Except Error Nat := (s.table name).map (·.rows.length)

/-! ### Definition and storage -/

def store (s : Session) (name : Text) (t : Table) : Session :=
  { s with tables := s.tables.bind name t }

def remove (s : Session) (name : Text) : Session := { s with tables := s.tables.unbind name }

def clear (s : Session) : Session := { s with tables := {} }

def define (s : Session) (name : Text) (tags : List Text) : Except Error (Table × Session) :=
  (Kind.readAll tags).map fun schema =>
    let t : Table := { schema }
    (t, s.store name t)

/-- Names the table in a fault of its source. -/
def namingTable (name : Text) : Error → Error
  | .source f => .load name f
  | e => e

/-- Replaces a table by the rows of a source, against its schema. A fault leaves the table as it
was. -/
def loadFeed (s : Session) (headed : Bool) (name : Text) (feed : Except Error Feed) :
    Except Error (Table × Session) := do
  let t ← s.table name
  let feed ← feed
  let loaded ← (feed.readTable name t.schema headed).mapError (namingTable name)
  return (loaded, s.store name loaded)

def load (s : Session) (headed : Bool) (name source : Text) : Except Error (Table × Session) :=
  s.loadFeed headed name (Feed.ofPath s.files s.dataDir source)

def render (s : Session) (name : Text) : Except Error Text := (s.table name).bind Table.write

def bytesOf (t : Table) : Except Error ByteArray :=
  t.write.bind fun text => (Text.Utf8.encode text).mapError .unencodable

/-- The table that is saved, and the location of the file, unless that may not be written. -/
def opened (s : Session) (name target : Text) : Except Error (Table × Location) := do
  let path := Storage.Path.resolve s.dataDir target
  let t ← s.table name
  let file ← Storage.Path.canonical path
  if s.files.isReadOnly file then .error (.save (.readOnly target))
  else
    let l ← (s.files.target file).mapError fun cause => .save (.unwritable target ⟨cause, path⟩)
    return (t, l)

/-- Writes a table to a file. The file is emptied first: a table without bytes leaves it empty, and a
fault of the device leaves what has been written. -/
def save (s : Session) (name target : Text) : Except Error Unit × Session :=
  match s.opened name target with
  | .error e => (.error e, s)
  | .ok (t, l) =>
    let (fault?, files) := s.files.write l ((bytesOf t).toOption.getD .empty)
    (match bytesOf t, fault? with
      | .error e, _ => .error e
      | .ok _, some fault => .error (.save (.cutShort target fault))
      | .ok _, none => .ok (), { s with files })

/-! ### Relational operations by name -/

def rows (s : Session) (name : Text) (column : ColumnRef) (comparator literal : Text) :
    Except Error Table := do
  let t ← s.table name
  let c ← t.resolve column
  Algebra.select t c comparator literal s.legacy

def columns (s : Session) (name : Text) (columns : List ColumnRef) : Except Error Table := do
  let t ← s.table name
  let cs ← columns.mapM t.resolve
  Algebra.project t (cs.map Int.ofNat)

def product (s : Session) (left right : Text) : Except Error Table := do
  let l ← s.table left
  let r ← s.table right
  return Algebra.product l r

/-- The positions of pairs of columns. -/
def resolvePairs (l r : Table) (pairs : List (ColumnRef × ColumnRef)) :
    Except Error (List (Int × Int)) :=
  pairs.mapM fun p => do
    let c ← l.resolve p.1
    let d ← r.resolve p.2
    return ((c : Int), (d : Int))

def join (s : Session) (left right : Text) (pairs : List (ColumnRef × ColumnRef)) :
    Except Error Table := do
  let l ← s.table left
  let r ← s.table right
  Algebra.join l r (← resolvePairs l r pairs)

def outerJoin (s : Session) (left right : Text) (pairs : List (ColumnRef × ColumnRef)) :
    Except Error Table := do
  let l ← s.table left
  let r ← s.table right
  Algebra.outerJoin l r (← resolvePairs l r pairs)

def naturalJoin (s : Session) (left right : Text) (outer : Bool) : Except Error Table := do
  let l ← s.table left
  let r ← s.table right
  Algebra.naturalJoin l r outer

def orderBy (s : Session) (name : Text) (column : ColumnRef) : Except Error Table := do
  let t ← s.table name
  let c ← t.resolve column
  Algebra.orderBy t c

/-- The rows of a table whose cell in a column is nowhere in the other table's column. -/
def check (s : Session) (name : Text) (column : ColumnRef) (refName : Text)
    (refColumn : ColumnRef) : Except Error Table := do
  let t ← s.table name
  let r ← s.table refName
  let c ← t.resolve column
  let rc ← r.resolve refColumn
  Algebra.unreferenced t c r rc

/-! ### Laws -/

theorem table_eq_ok {s : Session} {name : Text} {t : Table} :
    s.table name = .ok t ↔ s.tables.find? name = some t := by
  unfold table
  split
  · next u h => rw [h]; exact ⟨fun e => congrArg some (Except.ok.inj e),
      fun e => congrArg Except.ok (Option.some.inj e)⟩
  · next h => rw [h]; exact ⟨fun e => (nomatch e), fun e => (nomatch e)⟩

theorem table_store_self (s : Session) (name : Text) (t : Table) :
    (s.store name t).table name = .ok t := table_eq_ok.mpr (Catalog.find?_bind_self ..)

end Session

end TableAlgebra
