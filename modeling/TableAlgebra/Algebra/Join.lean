import TableAlgebra.Table

/-!
# Products and joins

Two tables side by side: all pairs of rows, or those that agree in paired columns, and for the
outer join also the rows that agree with nothing, filled up with nulls. A product with a table
that has no rows is the other table; a join with one has no rows and no columns.
-/

namespace TableAlgebra.Algebra

/-! ### Two tables side by side -/

/-- The headers one after the other, if both tables have one. -/
def combinedHeader (l r : Table) : List Text :=
  if l.hasHeader && r.hasHeader then l.header ++ r.header else []

def combined (l r : Table) (rows : List Row) : Table :=
  .ofRows (l.schema ++ r.schema) (combinedHeader l r) rows

/-- All pairs of rows, the right one running faster. -/
def product (l r : Table) : Table :=
  if l.rows.isEmpty && r.rows.isEmpty then .empty []
  else if l.rows.isEmpty then r
  else if r.rows.isEmpty then l
  else combined l r (l.rows.flatMap fun a => r.rows.map (a ++ ·))

/-! ### Pairs of columns -/

def sameKind (l r : Table) (p : Nat × Nat) : Bool := l.kind p.1 = r.kind p.2

def positionPair (l r : Table) (p : Int × Int) : Except Error (Nat × Nat) := do
  let c ← l.position p.1
  let d ← r.position p.2
  return (c, d)

def positionPairs (l r : Table) (pairs : List (Int × Int)) : Except Error (List (Nat × Nat)) :=
  pairs.mapM (positionPair l r)

/-- The rows agree in every pair of columns. -/
def agree (pairs : List (Nat × Nat)) (a b : Row) : Bool :=
  pairs.all fun p => a.cell p.1 = b.cell p.2

/-- The pairs of rows that agree, the right one running faster. -/
def joinedRows (l r : Table) (pairs : List (Nat × Nat)) : List Row :=
  l.rows.flatMap fun a => (r.rows.filter (agree pairs a)).map (a ++ ·)

/-- The rows of the left table that agree with no row of the right one, with nulls for its
columns. -/
def leftAlone (l r : Table) (pairs : List (Nat × Nat)) : List Row :=
  (l.rows.filter fun a => !r.rows.any (agree pairs a)).map (· ++ Row.nulls r.schema)

/-- The rows of the right table that agree with no row of the left one, with nulls for its
columns. -/
def rightAlone (l r : Table) (pairs : List (Nat × Nat)) : List Row :=
  (r.rows.filter fun b => !l.rows.any (agree pairs · b)).map (Row.nulls l.schema ++ ·)

/-! ### Joins -/

def joinOn (l r : Table) (pairs : List (Nat × Nat)) : Table :=
  if l.rows.isEmpty || r.rows.isEmpty then .empty [] else combined l r (joinedRows l r pairs)

def outerJoinOn (l r : Table) (pairs : List (Nat × Nat)) : Table :=
  combined l r (joinedRows l r pairs ++ leftAlone l r pairs ++ rightAlone l r pairs)

/-- The pairs of rows that agree in every pair of columns. Pairs of columns of different kinds do
not count, but have to exist. -/
def join (l r : Table) (pairs : List (Int × Int)) : Except Error Table :=
  (positionPairs l r pairs).map fun ps => joinOn l r (ps.filter (sameKind l r))

/-- The equi-join, with the rows of both sides that agree with nothing. -/
def outerJoin (l r : Table) (pairs : List (Int × Int)) : Except Error Table :=
  (positionPairs l r pairs).map fun ps => outerJoinOn l r (ps.filter (sameKind l r))

/-! ### Natural joins -/

def namePairs (l r : Table) : List (Nat × Nat) :=
  l.header.zipIdx.flatMap fun m =>
    r.header.zipIdx.filterMap fun n => if m.1 = n.1 then some (m.2, n.2) else none

/-- The join on all pairs of columns of the same name; without one there is nothing to join. -/
def naturalJoin (l r : Table) (outer : Bool := false) : Except Error Table :=
  let pairs := (namePairs l r).map fun p => ((p.1 : Int), (p.2 : Int))
  if pairs.isEmpty then .ok (.empty [])
  else if outer then outerJoin l r pairs
  else join l r pairs

/-! ### Laws -/

theorem agree_cons (p : Nat × Nat) (ps : List (Nat × Nat)) (a b : Row) :
    agree (p :: ps) a b = (decide (a.cell p.1 = b.cell p.2) && agree ps a b) := rfl

theorem agree_append (ps qs : List (Nat × Nat)) (a b : Row) :
    agree (ps ++ qs) a b = (agree ps a b && agree qs a b) := List.all_append

theorem rows_combined {l r : Table} {rows : List Row}
    (h : ∀ x ∈ rows, x.conforms (l.schema ++ r.schema) = true) : (combined l r rows).rows = rows :=
  List.filter_eq_self.mpr h

end TableAlgebra.Algebra
