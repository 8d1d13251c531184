import TableAlgebra.Text

/-!
# Column references

A column is named by its position, counted from zero, or by its header.
-/

namespace TableAlgebra

inductive ColumnRef where
  | index (i : Int)
  | name (s : Text)
  deriving Repr, DecidableEq

def ColumnRef.text : ColumnRef → Text
  | .index i => .ofInt i
  | .name s => s

end TableAlgebra
