import TableAlgebra.Text.Digit

/-!
# Arguments of the command line

Flags come in one letter or in words. A flag in words may be cut short as long as it stays
unambiguous, and may have its value after an equals sign. One-letter flags may share a hyphen, and
the last of them may have its value right after it. There are no other arguments.
-/

namespace TableAlgebra.Shell

/-- What the command line asks for. -/
structure Options where
  dataDir : Text := "."
  command : Option Text := none
  script : Option Text := none
  verbose : Bool := false
  legacy : Bool := false
  deriving Repr, DecidableEq

inductive Flag where
  | help
  | dataDir
  | execute
  | file
  | verbose
  | legacy
  deriving Repr, DecidableEq

namespace Flag

def spellings : List (Text × Flag) :=
  [("-h", help), ("--help", help), ("-d", dataDir), ("--data-dir", dataDir), ("-e", execute),
   ("--execute", execute), ("-f", file), ("--file", file), ("-v", verbose), ("--verbose", verbose),
   ("--legacy-comparators", legacy)]

def takesValue : Flag → Bool
  | dataDir | execute | file => true
  | _ => false

def ofLetter? (c : Text.Point) : Option Flag := spellings.lookup [.char '-', c]

/-- Sets what the flag asks for. -/
def set (o : Options) (value : Text) : Flag → Options
  | help => o
  | dataDir => { o with dataDir := value }
  | execute => { o with command := some value }
  | file => { o with script := some value }
  | verbose => { o with verbose := true }
  | legacy => { o with legacy := true }

end Flag

/-! ### Kinds of arguments -/

/-- What one argument is. Flags come with the value that the last of them has in the same
argument. -/
inductive Argument where
  | value (text : Text)
  | separator
  | flags (fs : List Flag) (given : Option Text)
  | unknown
  | invalid
  | ambiguous
  deriving Repr, DecidableEq

namespace Argument

/-- The flag in front of the flags of an argument. -/
def consFlag (f : Flag) : Argument → Argument
  | flags fs given => flags (f :: fs) given
  | a => a

/-- The value of a flag in the same argument. Two hyphens there give no value, like no text at
all. -/
def givenValue (cs : Text) : Text := if cs = "--" then [] else cs

/-- A one-letter flag with the text that it is given: its value, or further flags. -/
def cluster (f : Flag) : Text → Argument
  | [] => if f.takesValue then flags [f] (some []) else invalid
  | c :: cs =>
    if f.takesValue then flags [f] (some (givenValue (c :: cs)))
    else
      match Flag.ofLetter? c with
      | some g => consFlag f (if cs.isEmpty then flags [g] none else cluster g cs)
      | none => invalid

/-- A one-letter flag with the text after it. An equals sign right after the flag does not count. -/
def short (f : Flag) : Text → Argument
  | [] => flags [f] none
  | c :: cs => cluster f (if c = '=' then cs else c :: cs)

/-- The text before the first equals sign, and the text after it if there is one. -/
def splitAssignment (cs : Text) : Text × Option Text :=
  let name := cs.takeWhile fun p => p != .char '='
  (name, if cs.contains '=' then some (givenValue (cs.drop (name.length + 1))) else none)

/-- A flag in words, with the text after an equals sign if there is one. -/
def long (f : Flag) : Option Text → Argument
  | none => flags [f] none
  | some text => if f.takesValue then flags [f] (some text) else invalid

/-- The flags in words that start with a text: any of them, if it is spelled out. -/
def longFlags (name : Text) : List Flag :=
  match Flag.spellings.lookup name with
  | some f => [f]
  | none => (Flag.spellings.filter fun s => name.isPrefixOf s.1).map (·.2)

/-- The text is a number below zero, and so a value. A line feed may follow it. -/
def isNegativeNumber (cs : Text) : Bool :=
  match if cs.getLast? = some '\n' then cs.dropLast else cs with
  | .char '-' :: cs =>
    match cs.dropWhile Text.isDigit with
    | [] => !cs.isEmpty
    | .char '.' :: ds => !ds.isEmpty && ds.all Text.isDigit
    | _ => false
  | _ => false

/-- An argument that starts like a flag and is none: a value after all, if it could not be one. -/
def unmatched (cs : Text) : Argument :=
  if isNegativeNumber cs || cs.contains ' ' then value cs else unknown

/-- What an argument is. -/
def ofText (s : Text) : Argument :=
  match s with
  | [.char '-', .char '-'] => separator
  | .char '-' :: .char '-' :: _ =>
    let (name, text) := splitAssignment s
    match longFlags name with
    | [] => unmatched s
    | [f] => long f text
    | _ => ambiguous
  | .char '-' :: c :: cs =>
    match Flag.ofLetter? c with
    | some f => short f cs
    | none => unmatched s
  | _ => value s

/-- What the arguments are: after two hyphens alone, all are values. -/
def ofTexts : List Text → List Argument
  | [] => []
  | s :: ss =>
    match ofText s with
    | separator => separator :: ss.map value
    | a => a :: ofTexts ss

end Argument

/-! ### Reading the options -/

/-- What reading the arguments comes to. -/
inductive Request where
  | run (options : Options)
  | help
  | invalid
  deriving Repr, DecidableEq

/-- Sets flags, each to the value if it takes one; asking for help stops all else. -/
def setAll (o : Options) (fs : List Flag) (value : Text) : Option Options :=
  if fs.contains .help then none else some (fs.foldl (fun o f => f.set o value) o)

/-- Sets the options of the arguments in turn. `isOver` says that something was left over that is
no option: this makes the arguments invalid once all of them are read. -/
def readFrom (o : Options) (isOver : Bool) : List Argument → Request
  | [] => if isOver then .invalid else .run o
  | .value _ :: as | .separator :: as | .unknown :: as => readFrom o true as
  | .invalid :: _ | .ambiguous :: _ => .invalid
  | .flags fs (some v) :: as =>
    match setAll o fs v with
    | some o => readFrom o isOver as
    | none => .help
  | [.flags fs none] =>
    if fs.any Flag.takesValue then .invalid
    else
      match setAll o fs [] with
      | some o => if isOver then .invalid else .run o
      | none => .help
  | .flags fs none :: a :: as =>
    if fs.any Flag.takesValue then
      match a with
      | .value v =>
        match setAll o fs v with
        | some o => readFrom o isOver as
        | none => .help
      | _ => .invalid
    else
      match setAll o fs [] with
      | some o => readFrom o isOver (a :: as)
      | none => .help

/-- The options that the arguments of a command line give. -/
def Request.ofArguments (arguments : List Text) : Request :=
  let as := Argument.ofTexts arguments
  if as.contains .ambiguous then .invalid else readFrom {} false as

end TableAlgebra.Shell
