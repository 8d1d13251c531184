import TableAlgebra.Json.Decimal
import TableAlgebra.Text.Numeral
import TableAlgebra.Text.Quoted

/-!
# JSON values

Integers are told from numbers with a fraction or an exponent.
-/

namespace TableAlgebra

inductive Json where
  | null
  | bool (b : Bool)
  | int (n : Int)
  | decimal (d : Decimal)
  | string (s : Text)
  | array (items : List Json)
  | object (fields : List (Text × Json))
  deriving Repr

namespace Json

def field? (name : Text) : Json → Option Json
  | object fields => fields.lookup name
  | _ => none

/-- The value holds something: it is not null, false, zero or empty. -/
def isTruthy : Json → Bool
  | null => false
  | bool b => b
  | int n => n != 0
  | decimal d => !d.isZero
  | string s => !s.isEmpty
  | array items => !items.isEmpty
  | object fields => !fields.isEmpty

mutual

/-- No integer in the value is too long to be written. -/
def isWritable : Json → Bool
  | int n => Text.Numeral.isShort n
  | array items => areWritable items
  | object fields => areWritableFields fields
  | _ => true

def areWritable : List Json → Bool
  | [] => true
  | v :: vs => v.isWritable && areWritable vs

def areWritableFields : List (Text × Json) → Bool
  | [] => true
  | (_, v) :: fs => v.isWritable && areWritableFields fs

end

mutual

def inspect : Json → Text
  | null => "None"
  | bool b => if b then "True" else "False"
  | int n => .ofInt n
  | decimal d => d.text
  | string s => s.quote
  | array items => "[" ++ Text.joined ", " (inspectItems items) ++ "]"
  | object fields => "\x7b" ++ Text.joined ", " (inspectFields fields) ++ "\x7d"

def inspectItems : List Json → List Text
  | [] => []
  | v :: vs => v.inspect :: inspectItems vs

def inspectFields : List (Text × Json) → List Text
  | [] => []
  | (name, v) :: fs => (name.quote ++ ": " ++ v.inspect) :: inspectFields fs

end

end Json

end TableAlgebra
