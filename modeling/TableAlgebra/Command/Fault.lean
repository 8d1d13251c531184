import TableAlgebra.Command.Token

/-!
# Faults of a command text

The ways in which a command can be malformed, with their wording.
-/

namespace TableAlgebra.Command

/-- The relational operations of the command language. -/
inductive Operator where
  | rows
  | columns
  | product
  | join
  | naturalJoin
  | orderBy
  deriving Repr, DecidableEq

namespace Operator

def all : List Operator := [rows, columns, product, join, naturalJoin, orderBy]

def name : Operator → Text
  | rows => "rows"
  | columns => "columns"
  | product => "product"
  | join => "join"
  | naturalJoin => "naturaljoin"
  | orderBy => "orderby"

def ofWord? (w : Text) : Option Operator := all.find? fun op => op.name == w.lower

def hasOuter : Operator → Bool
  | join | naturalJoin => true
  | _ => false

/-- The arguments that an operation takes. -/
def shape : Operator → Text
  | rows => "(table, column, comparator, value)"
  | columns => "(table, column, ...)"
  | product => "(table, table)"
  | join => "(table, table, column, column, ...)"
  | naturalJoin => "(table, table)"
  | orderBy => "(table, column)"

theorem ofWord?_name (op : Operator) : ofWord? op.name = some op := by
  cases op <;> decide +kernel

end Operator

/-- What a command lacks at some place. -/
inductive Wanted where
  | symbol (s : Symbol)
  | keyword (k : Keyword)
  | tableName
  | fileName
  | column
  | typeTag
  | columnType
  | operation
  | comparator
  | value
  deriving Repr, DecidableEq

def Wanted.text : Wanted → Text
  | .symbol s => s.name
  | .keyword k => k.word
  | .tableName => "table name"
  | .fileName => "file name"
  | .column => "column index or name"
  | .typeTag => "int or string"
  | .columnType => "at least one column type"
  | .operation => "operation name"
  | .comparator => "comparator"
  | .value => "value"

inductive Fault where
  | illegal (c : Text.Point)
  | unterminated
  | wanted (what : Wanted)
  | unexpected (found : Option Lexeme)
  | unknownOperation (word : Text)
  | noOuterForm (word : Text)
  | arity (op : Operator)
  deriving Repr, DecidableEq

def Fault.text : Fault → Text
  | .illegal c => "Illegal character " ++ Text.quote [c]
  | .unterminated => "Unterminated string"
  | .wanted what => "Expected " ++ what.text
  | .unexpected none => "Unexpected token: None"
  | .unexpected (some l) => "Unexpected token: " ++ l.value
  | .unknownOperation w => "Unknown operation: " ++ w
  | .noOuterForm w => "'outer' cannot be applied to " ++ w
  | .arity op => op.name ++ " expects " ++ op.shape

def Fault.message (f : Fault) (p : Place) : Text :=
  f.text ++ " at line " ++ .ofNat p.line ++ ", column " ++ .ofNat p.column

end TableAlgebra.Command
