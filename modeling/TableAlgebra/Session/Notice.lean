import TableAlgebra.Session.Execute

/-!
# Notices

What a session tells about its work, beside its answers: tables that are defined, loaded or
stored, results that are not stored, pairs of columns that a join leaves out, and failures to load
or save. The notices of a command follow from the command and the session before it.
-/

namespace TableAlgebra

open Command (Operation Statement)

inductive Notice where
  | defined (table : Text) (schema : Schema)
  | loaded (table : Text) (rows : Nat)
  | stored (table : Text) (rows : Nat)
  | discarded (table : Text)
  | droppedPair (left right : Nat)
  | notLoaded (table : Text) (fault : Storage.LoadFault)
  | notSaved (table : Text) (fault : Storage.SaveFault)
  | unexpected (line : Text)
  deriving Repr, DecidableEq

namespace Notice

/-- The notice is a warning or worse, and shows even where notices are not asked for. -/
def isWarning : Notice → Bool
  | notLoaded .. | notSaved .. | unexpected _ => true
  | _ => false

/-- The notice as a line of the log: its level, where it comes from, and what it says. -/
def line : Notice → Text
  | defined t schema =>
    let flags := schema.map fun k => if k = .numeric then ("True" : Text) else "False"
    "DEBUG reldb.core.database: Defined " ++ t ++ " with schema [" ++ Text.joined ", " flags ++ "]"
  | loaded t n => "DEBUG reldb.core.database: Loaded " ++ .ofNat n ++ " row(s) into " ++ t
  | stored t n => "DEBUG reldb.core.database: Storing " ++ t ++ " (" ++ .ofNat n ++ " row(s))"
  | discarded t => "DEBUG reldb.core.executor: Discarding empty result for " ++ t
  | droppedPair c d =>
    "DEBUG reldb.core.operators: Dropping join pair (" ++ .ofNat c ++ ", " ++ .ofNat d ++
      "): column kinds differ"
  | notLoaded t f => "WARNING reldb.core.database: Unable to load " ++ t ++ ": " ++ f.message
  | notSaved t f => "WARNING reldb.core.database: Unable to save " ++ t ++ ": " ++ f.message
  | unexpected l => "ERROR reldb.core.repl: Unexpected failure running " ++ l.quote

end Notice

namespace Session

/-- The pairs of columns that a join of two tables leaves out. -/
def droppedPairs (l r : Table) (pairs : List (Nat × Nat)) : List Notice :=
  (pairs.filter fun p => !Algebra.sameKind l r p).map fun p => .droppedPair p.1 p.2

def evaluationNotices (s : Session) : Operation → List Notice
  | .join left right pairs _ =>
    match s.tables.find? left, s.tables.find? right with
    | some l, some r =>
      match (resolvePairs l r pairs).bind (Algebra.positionPairs l r) with
      | .ok ps => droppedPairs l r ps
      | .error _ => []
    | _, _ => []
  | .naturalJoin left right _ =>
    match s.tables.find? left, s.tables.find? right with
    | some l, some r => droppedPairs l r (Algebra.namePairs l r)
    | _, _ => []
  | _ => []

def statementNotices (s : Session) (statement : Statement) : List Notice :=
  match statement, (s.run statement).1 with
  | .define name _, .ok reply => (reply.table.map fun t => .defined name t.schema).toList
  | .load name .., .ok reply => (reply.table.map fun t => .loaded name t.rows.length).toList
  | .load .., .error (.load name fault) => [.notLoaded name fault]
  | .save name _, .error (.save fault) => [.notSaved name fault]
  | .assign target op, .ok reply =>
    let outcome := match reply.table with
      | some t => if t.rows.isEmpty then .discarded target else .stored target t.rows.length
      | none => .discarded target
    s.evaluationNotices op ++ [outcome]
  | .assign _ op, .error _ => s.evaluationNotices op
  | _, _ => []

def notices (s : Session) (command : Text) : List Notice :=
  match Command.statement command with
  | .ok statement => s.statementNotices statement
  | .error _ => []

def noticesOfAll (s : Session) : List Text → List Notice
  | [] => []
  | command :: commands =>
    s.notices command ++
      match s.execute command with
      | (.ok reply, s') => if reply.stop then [] else s'.noticesOfAll commands
      | (.error _, _) => []

end Session

end TableAlgebra
