import TableAlgebra.Command.Lexer
import TableAlgebra.Command.Statement

/-!
# From tokens to statements

One command is one statement, with an optional semicolon after it. Each reader takes what it wants
from the front of the tokens and hands on the rest, or names the fault at the place where it
stopped. The arguments of an operation are read first, whatever they are, and then held against
its shape.
-/

namespace TableAlgebra.Command

namespace Tokens

/-! ### The front of the tokens -/

def place (ts : Tokens) : Place :=
  match ts.list with
  | [] => ts.stop
  | t :: _ => t.place

def next? (ts : Tokens) : Option Lexeme := ts.list.head?.map (·.lexeme)

def drop (ts : Tokens) : Tokens := { ts with list := ts.list.tail }

def refuse {α : Type} (ts : Tokens) (fault : Fault) : Except Error α :=
  .error (.command fault ts.place)

def symbol (ts : Tokens) (s : Symbol) : Except Error Tokens :=
  if ts.next? = some (.symbol s) then .ok ts.drop else ts.refuse (.wanted (.symbol s))

def startsWith (ts : Tokens) (k : Keyword) : Bool :=
  match ts.next? with
  | some (.keyword k' _) => k = k'
  | _ => false

def keyword (ts : Tokens) (k : Keyword) : Except Error Tokens :=
  if ts.startsWith k then .ok ts.drop else ts.refuse (.wanted (.keyword k))

/-- Takes a keyword if it is there, and tells whether it was. -/
def keyword? (ts : Tokens) (k : Keyword) : Bool × Tokens :=
  if ts.startsWith k then (true, ts.drop) else (false, ts)

def word (ts : Tokens) (what : Wanted) : Except Error (Text × Tokens) :=
  match ts.next? with
  | some (.word w) => .ok (w, ts.drop)
  | _ => ts.refuse (.wanted what)

def tableName (ts : Tokens) : Except Error (Text × Tokens) := ts.word .tableName

end Tokens

/-! ### Columns, files and values -/

/-- The column that a lexeme names: an integer counts, any other spelling is a header. -/
def Lexeme.column? : Lexeme → Option ColumnRef
  | .integer n _ => some (.index n.val)
  | .word w => some (.name w)
  | .quoted v => some (.name v)
  | _ => none

/-- The text that a lexeme stands for as a file name or a value: an integer keeps its spelling. -/
def Lexeme.literal? : Lexeme → Option Text
  | .integer _ w => some w
  | .word w => some w
  | .quoted v => some v
  | _ => none

def Lexeme.table? : Lexeme → Option Text
  | .word w => some w
  | _ => none

def Lexeme.comparison? : Lexeme → Option Text
  | .symbol s => if s.isComparison then some s.text else none
  | _ => none

def Lexeme.isArgument : Lexeme → Bool
  | .symbol s => s.isComparison
  | .keyword .. => false
  | _ => true

namespace Tokens

def path (ts : Tokens) : Except Error (Text × Tokens) :=
  match ts.next?.bind Lexeme.literal? with
  | some s => .ok (s, ts.drop)
  | none => ts.refuse (.wanted .fileName)

def column (ts : Tokens) : Except Error (ColumnRef × Tokens) :=
  match ts.next?.bind Lexeme.column? with
  | some c => .ok (c, ts.drop)
  | none => ts.refuse (.wanted .column)

/-- Takes a table with a column in parentheses. -/
def tableColumn (ts : Tokens) : Except Error ((Text × ColumnRef) × Tokens) := do
  let (table, ts) ← ts.tableName
  let ts ← ts.symbol .lparen
  let (column, ts) ← ts.column
  let ts ← ts.symbol .rparen
  return ((table, column), ts)

end Tokens

/-! ### Type tags -/

/-- Reads type tags up to the closing parenthesis; a comma may follow each. -/
def typeTags (stop : Place) : List Token → Except Error (List Text × Tokens)
  | [] => .error (.command (.wanted .typeTag) stop)
  | ⟨.symbol .rparen, _⟩ :: ts => .ok ([], ⟨ts, stop⟩)
  | ⟨.word w, _⟩ :: ⟨.symbol .comma, _⟩ :: ts =>
    (typeTags stop ts).map fun (ws, ts) => (w :: ws, ts)
  | ⟨.word w, _⟩ :: ts => (typeTags stop ts).map fun (ws, ts) => (w :: ws, ts)
  | ⟨_, p⟩ :: _ => .error (.command (.wanted .typeTag) p)

/-! ### Arguments -/

/-- Reads one argument and, as long as commas follow, further ones. -/
def argumentList (stop : Place) : List Token → Except Error (List Token × Tokens)
  | [] => .error (.command (.unexpected none) stop)
  | [t] =>
    if t.lexeme.isArgument then .ok ([t], ⟨[], stop⟩)
    else .error (.command (.unexpected (some t.lexeme)) t.place)
  | t :: u :: ts =>
    if t.lexeme.isArgument then
      if u.lexeme = .symbol .comma then (argumentList stop ts).map fun (as, ts) => (t :: as, ts)
      else .ok ([t], ⟨u :: ts, stop⟩)
    else .error (.command (.unexpected (some t.lexeme)) t.place)

/-- Reads the arguments of an operation: none, if the closing parenthesis comes first. -/
def arguments (ts : Tokens) : Except Error (List Token × Tokens) :=
  if ts.next? = some (.symbol .rparen) then .ok ([], ts) else argumentList ts.stop ts.list

/-! ### Operations -/

/-- What a token stands for in some role, or a fault at the token. -/
def Token.want {α : Type} (t : Token) (role : Lexeme → Option α) (what : Wanted) : Except Error α :=
  match role t.lexeme with
  | some a => .ok a
  | none => .error (.command (.wanted what) t.place)

def Token.table (t : Token) : Except Error Text := t.want Lexeme.table? .tableName

def Token.column (t : Token) : Except Error ColumnRef := t.want Lexeme.column? .column

def Token.comparison (t : Token) : Except Error Text := t.want Lexeme.comparison? .comparator

def Token.literal (t : Token) : Except Error Text := t.want Lexeme.literal? .value

/-- Columns two by two; a last one without a partner is left out. -/
def pairUp : List ColumnRef → List (ColumnRef × ColumnRef)
  | c :: d :: cs => (c, d) :: pairUp cs
  | _ => []

/-- The operation on the given arguments. `p` is the place of its name, where a wrong number of
arguments is reported. -/
def Operator.apply (op : Operator) (outer : Bool) (p : Place) (args : List Token) :
    Except Error Operation :=
  match op, args with
  | .rows, [t, c, r, v] => do
    let comparator ← r.comparison
    let literal ← v.literal
    return .rows (← t.table) (← c.column) comparator literal
  | .columns, t :: cs => do
    return .columns (← t.table) (← cs.mapM Token.column)
  | .product, [l, r] => do
    return .product (← l.table) (← r.table)
  | .join, l :: r :: c :: d :: cs => do
    if cs.length % 2 = 0 then
      let refs ← (c :: d :: cs).mapM Token.column
      return .join (← l.table) (← r.table) (pairUp refs) outer
    else .error (.command (.arity op) p)
  | .naturalJoin, [l, r] => do
    return .naturalJoin (← l.table) (← r.table) outer
  | .orderBy, [t, c] => do
    return .orderBy (← t.table) (← c.column)
  | _, _ => .error (.command (.arity op) p)

def operation (ts : Tokens) : Except Error (Operation × Tokens) := do
  let (outer, ts) := ts.keyword? .outer
  let p := ts.place
  let (name, ts) ← ts.word .operation
  match Operator.ofWord? name with
  | none => .error (.command (.unknownOperation name) p)
  | some op =>
    if outer && !op.hasOuter then .error (.command (.noOuterForm name) p)
    else
      let ts ← ts.symbol .lparen
      let (args, ts) ← arguments ts
      let ts ← ts.symbol .rparen
      let operation ← op.apply outer p args
      return (operation, ts)

/-! ### Statements -/

/-- Reads the statement that starts with a keyword, from the tokens after the keyword. -/
def keywordStatement (k : Keyword) (ts : Tokens) : Option (Except Error (Statement × Tokens)) :=
  match k with
  | .define => some do
    let (table, ts) ← ts.tableName
    let ts ← ts.symbol .lparen
    let (types, ts) ← typeTags ts.stop ts.list
    if types.isEmpty then ts.refuse (.wanted .columnType) else return (.define table types, ts)
  | .load => some do
    let (headed, ts) := ts.keyword? .headed
    let (table, ts) ← ts.tableName
    let ts ← ts.keyword .source
    let (source, ts) ← ts.path
    return (.load table source headed, ts)
  | .save => some do
    let (table, ts) ← ts.tableName
    let (target, ts) ← ts.path
    return (.save table target, ts)
  | .print => some do
    let (table, ts) ← ts.tableName
    return (.print table, ts)
  | .check => some do
    let ((table, column), ts) ← ts.tableColumn
    let ts ← ts.keyword .references
    let ((refTable, refColumn), ts) ← ts.tableColumn
    return (.check table column refTable refColumn, ts)
  | .remove => some do
    let (table, ts) ← ts.tableName
    return (.remove table, ts)
  | .clear => some (.ok (.clear, ts))
  | .exit => some (.ok (.exit, ts))
  | _ => none

/-- Reads one statement from the front of the tokens. -/
def statementFront (ts : Tokens) : Except Error (Statement × Tokens) :=
  match ts.next? with
  | some (.keyword k _) =>
    match keywordStatement k ts.drop with
    | some result => result
    | none => ts.refuse (.unexpected ts.next?)
  | some (.word target) => do
    let ts ← ts.drop.symbol .assign
    let (operation, ts) ← operation ts
    return (.assign target operation, ts)
  | found => ts.refuse (.unexpected found)

/-- Nothing may follow a statement but one semicolon. -/
def finish (ts : Tokens) : Except Error Unit :=
  let ts := if ts.next? = some (.symbol .semicolon) then ts.drop else ts
  if ts.list.isEmpty then .ok () else ts.refuse (.unexpected ts.next?)

def Tokens.statement (ts : Tokens) : Except Error Statement := do
  let (s, ts) ← statementFront ts
  finish ts
  return s

def statement (text : Text) : Except Error Statement := do
  (← tokens text).statement

end TableAlgebra.Command
