import TableAlgebra.Column

/-!
# Statements

What a command says: to define, load, save, print, check or remove a table, to clear the session
or leave it, or to bind a name to the result of a relational operation.
-/

namespace TableAlgebra.Command

/-- A relational operation on named tables. -/
inductive Operation where
  | rows (table : Text) (column : ColumnRef) (comparator literal : Text)
  | columns (table : Text) (columns : List ColumnRef)
  | product (left right : Text)
  | join (left right : Text) (pairs : List (ColumnRef × ColumnRef)) (outer : Bool)
  | naturalJoin (left right : Text) (outer : Bool)
  | orderBy (table : Text) (column : ColumnRef)
  deriving Repr, DecidableEq

inductive Statement where
  | define (table : Text) (types : List Text)
  | load (table source : Text) (headed : Bool)
  | save (table target : Text)
  | print (table : Text)
  | check (table : Text) (column : ColumnRef) (refTable : Text) (refColumn : ColumnRef)
  | remove (table : Text)
  | clear
  | exit
  | assign (target : Text) (operation : Operation)
  deriving Repr, DecidableEq

def Operation.operands : Operation → List Text
  | rows t .. | columns t _ | orderBy t _ => [t]
  | product l r | join l r .. | naturalJoin l r _ => [l, r]

def Statement.file? : Statement → Option Text
  | load _ source _ => some source
  | save _ target => some target
  | _ => none

end TableAlgebra.Command
