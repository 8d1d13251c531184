import TableAlgebra.Table

/-!
# Projection

A projection lists columns: they may come in any order and more than once. No columns at all give
the table without columns and without rows.
-/

namespace TableAlgebra.Algebra

def pick (cs : List Nat) (r : Row) : Row := cs.map r.cell

def pickColumns (t : Table) (cs : List Nat) : Table :=
  .ofRows (cs.map t.kind) (if t.hasHeader then cs.map t.label else []) (t.rows.map (pick cs))

/-- The listed columns of a table, each counted from zero. -/
def project (t : Table) (columns : List Int) : Except Error Table :=
  if columns.isEmpty then .ok (.empty []) else (columns.mapM t.position).map (pickColumns t)

theorem length_pick (cs : List Nat) (r : Row) : (pick cs r).length = cs.length := List.length_map ..

theorem pick_append (cs ds : List Nat) (r : Row) : pick (cs ++ ds) r = pick cs r ++ pick ds r :=
  List.map_append

end TableAlgebra.Algebra
