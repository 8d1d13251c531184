import TableAlgebra.Text.Case
import TableAlgebra.Text.Numeral
import TableAlgebra.Text.Quoted

/-!
# Tokens of the command language

A lexeme is a keyword, a symbol, an integer, a quoted text or a bare word. A token is a lexeme
with the place where it starts.
-/

namespace TableAlgebra.Command

/-! ### Places -/

/-- A line and a column, both counted from one. -/
structure Place where
  line : Nat
  column : Nat
  deriving Repr, DecidableEq

namespace Place

def start : Place := ⟨1, 1⟩

def step (p : Place) (c : Text.Point) : Place :=
  if c = '\n' then ⟨p.line + 1, 1⟩ else ⟨p.line, p.column + 1⟩

/-- The place after a run of characters. -/
def after (p : Place) (cs : Text) : Place := cs.foldl step p

theorem after_nil (p : Place) : p.after [] = p := rfl

theorem after_cons (p : Place) (c : Text.Point) (cs : Text) :
    p.after (c :: cs) = (p.step c).after cs := rfl

theorem after_append (p : Place) (cs ds : Text) :
    p.after (cs ++ ds) = (p.after cs).after ds := List.foldl_append

end Place

/-! ### Keywords -/

inductive Keyword where
  | define
  | load
  | headed
  | source
  | save
  | print
  | check
  | references
  | remove
  | clear
  | exit
  | outer
  deriving Repr, DecidableEq

namespace Keyword

def word : Keyword → Text
  | define => "DEFINE"
  | load => "LOAD"
  | headed => "HEADED"
  | source => "FROM"
  | save => "SAVE"
  | print => "PRINT"
  | check => "CHECK"
  | references => "REFERENCES"
  | remove => "REMOVE"
  | clear => "CLEAR"
  | exit => "EXIT"
  | outer => "OUTER"

/-- The upper-case words that are keywords: `EXIT` has a second one. -/
def words : List (Text × Keyword) :=
  [define, load, headed, source, save, print, check, references, remove, clear, exit, outer].map
    (fun k => (k.word, k)) ++ [(("QUIT" : Text), exit)]

def ofWord? (cs : Text) : Option Keyword := words.lookup cs.upper

theorem ofWord?_word (k : Keyword) : ofWord? k.word = some k := by
  cases k <;> decide +kernel

end Keyword

/-! ### Symbols -/

inductive Symbol where
  | assign
  | equals
  | lessThan
  | greaterThan
  | lessEquals
  | greaterEquals
  | lparen
  | rparen
  | comma
  | semicolon
  deriving Repr, DecidableEq

namespace Symbol

def text : Symbol → Text
  | assign => "="
  | equals => "=="
  | lessThan => "<"
  | greaterThan => ">"
  | lessEquals => "<="
  | greaterEquals => ">="
  | lparen => "("
  | rparen => ")"
  | comma => ","
  | semicolon => ";"

def name : Symbol → Text
  | assign => "ASSIGN"
  | equals => "EQUALS"
  | lessThan => "LESS_THAN"
  | greaterThan => "GREATER_THAN"
  | lessEquals => "LESS_EQUALS"
  | greaterEquals => "GREATER_EQUALS"
  | lparen => "LPAREN"
  | rparen => "RPAREN"
  | comma => "COMMA"
  | semicolon => "SEMICOLON"

/-- The symbol compares two values. -/
def isComparison : Symbol → Bool
  | assign | equals | lessThan | greaterThan | lessEquals | greaterEquals => true
  | _ => false

end Symbol

/-! ### Lexemes and tokens -/

inductive Lexeme where
  | keyword (k : Keyword) (spelling : Text)
  | symbol (s : Symbol)
  | integer (value : Text.Numeral.Value) (spelling : Text)
  | quoted (value : Text)
  | word (spelling : Text)
  deriving Repr, DecidableEq

namespace Lexeme

def className : Lexeme → Text
  | keyword k _ => k.word
  | symbol s => s.name
  | integer .. => "INTEGER"
  | quoted _ => "STRING"
  | word _ => "IDENTIFIER"

/-- What a lexeme stands for: keywords in upper case, integers in plain decimal digits, quoted texts
without their quotes. -/
def value : Lexeme → Text
  | keyword _ w => w.upper
  | symbol s => s.text
  | integer n _ => .ofInt n.val
  | quoted v => v
  | word w => w

/-- How a lexeme is spelled; a quoted text has no bare spelling. -/
def spelling : Lexeme → Text
  | keyword _ w => w
  | symbol s => s.text
  | integer _ w => w
  | quoted _ => ""
  | word w => w

def inspect (l : Lexeme) : Text :=
  let shown := match l with
    | integer n _ => Text.ofInt n.val
    | _ => l.value.quote
  "Token(" ++ l.className ++ ", " ++ shown ++ ")"

end Lexeme

structure Token where
  lexeme : Lexeme
  place : Place
  deriving Repr, DecidableEq

end TableAlgebra.Command
