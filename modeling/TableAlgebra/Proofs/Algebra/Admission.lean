import TableAlgebra.Algebra.Join
import TableAlgebra.Algebra.Project
import TableAlgebra.Algebra.Select

/-!
# No operator has a row turned away

Every operator puts its rows into a table that takes only those that conform. Here the operators
are written once more with the way of putting rows into a table left open (`Assembly`): with
`Table.ofRows`, which adds the rows one by one (`ofRows_eq_foldl`), they are the operators
(`operators_ofRows`), and with `gather`, which takes every row, the operators without the check.

On tables whose rows conform the two agree (`select_eq_gather` and the others): every row that an
operator makes conforms to the schema of its result, so none is dropped.
-/

namespace TableAlgebra.Algebra

open Table (RowsConform)

/-- A way of making a table of a schema, a header and rows. -/
abbrev Assembly := Schema → List Text → List Row → Table

/-- The table of all the rows, whether or not they conform. -/
def gather : Assembly := fun schema header rows =>
  { schema, header := Table.fitHeader schema header, rows }

/-! ### The operators over an assembly -/

section
variable (mk : Assembly)

def keepBy (t : Table) (p : Row → Bool) : Table := mk t.schema t.header (t.rows.filter p)

def selectBy (t : Table) (column : Int) (symbol literal : Text) (legacy : Bool) :
    Except Error Table := do
  let comparator ← Comparator.read symbol
  let c ← t.position column
  let value ← readLiteral (t.kind c) literal
  let rows ← t.rows.filterM fun r => (comparator.inMode legacy).tell (r.cell c) value
  return mk t.schema t.header rows

def pickColumnsBy (t : Table) (cs : List Nat) : Table :=
  mk (cs.map t.kind) (if t.hasHeader then cs.map t.label else []) (t.rows.map (pick cs))

def projectBy (t : Table) (columns : List Int) : Except Error Table :=
  if columns.isEmpty then .ok (.empty []) else (columns.mapM t.position).map (pickColumnsBy mk t)

def combinedBy (l r : Table) (rows : List Row) : Table :=
  mk (l.schema ++ r.schema) (combinedHeader l r) rows

def productBy (l r : Table) : Table :=
  if l.rows.isEmpty && r.rows.isEmpty then .empty []
  else if l.rows.isEmpty then r
  else if r.rows.isEmpty then l
  else combinedBy mk l r (l.rows.flatMap fun a => r.rows.map (a ++ ·))

def joinOnBy (l r : Table) (pairs : List (Nat × Nat)) : Table :=
  if l.rows.isEmpty || r.rows.isEmpty then .empty [] else combinedBy mk l r (joinedRows l r pairs)

def outerJoinOnBy (l r : Table) (pairs : List (Nat × Nat)) : Table :=
  combinedBy mk l r (joinedRows l r pairs ++ leftAlone l r pairs ++ rightAlone l r pairs)

def joinBy (l r : Table) (pairs : List (Int × Int)) : Except Error Table :=
  (positionPairs l r pairs).map fun ps => joinOnBy mk l r (ps.filter (sameKind l r))

def outerJoinBy (l r : Table) (pairs : List (Int × Int)) : Except Error Table :=
  (positionPairs l r pairs).map fun ps => outerJoinOnBy mk l r (ps.filter (sameKind l r))

def naturalJoinBy (l r : Table) (outer : Bool) : Except Error Table :=
  let pairs := (namePairs l r).map fun p => ((p.1 : Int), (p.2 : Int))
  if pairs.isEmpty then .ok (.empty [])
  else if outer then outerJoinBy mk l r pairs
  else joinBy mk l r pairs

def unreferencedBy (t : Table) (column : Int) (referenced : Table) (refColumn : Int) :
    Except Error Table := do
  let c ← t.position column
  let rc ← referenced.position refColumn
  return keepBy mk t fun r => !(referenced.rows.map (·.cell rc)).contains (r.cell c)

end

/-- The operators are those over the tables that take only rows that conform. -/
theorem operators_ofRows :
    selectBy Table.ofRows = @select ∧ projectBy Table.ofRows = project ∧
      productBy Table.ofRows = product ∧ joinBy Table.ofRows = join ∧
      outerJoinBy Table.ofRows = outerJoin ∧ naturalJoinBy Table.ofRows = @naturalJoin ∧
      unreferencedBy Table.ofRows = unreferenced :=
  ⟨rfl, rfl, rfl, rfl, rfl, rfl, rfl⟩

/-! ### Adding rows one by one -/

theorem foldl_append (t : Table) (rows : List Row) :
    rows.foldl (fun t r => (t.append r).2) t =
      { t with rows := t.rows ++ rows.filter (·.conforms t.schema) } := by
  induction rows generalizing t with
  | nil => rw [List.foldl_nil, List.filter_nil, List.append_nil]
  | cons r rows ih =>
    rw [List.foldl_cons, ih]
    by_cases hr : r.conforms t.schema = true
    · have hf : (r :: rows).filter (·.conforms t.schema) =
          r :: rows.filter (·.conforms t.schema) := List.filter_cons_of_pos hr
      rw [Table.append, if_pos hr, hf]
      exact congrArg (fun rs => { t with rows := rs }) (List.append_assoc ..)
    · have hf : (r :: rows).filter (·.conforms t.schema) = rows.filter (·.conforms t.schema) :=
        List.filter_cons_of_neg hr
      rw [Table.append, if_neg hr, hf]

/-- The rows of a result are added one by one, and whether one was turned away is not looked at. -/
theorem ofRows_eq_foldl (schema : Schema) (header : List Text) (rows : List Row) :
    Table.ofRows schema header rows =
      rows.foldl (fun t r => (t.append r).2) (.empty schema header) := by
  rw [foldl_append]
  rfl

/-! ### The rows of the results conform -/

theorem ofRows_eq_gather {schema : Schema} {header : List Text} {rows : List Row}
    (h : ∀ r ∈ rows, r.conforms schema = true) :
    Table.ofRows schema header rows = gather schema header rows :=
  Table.sift_of_rowsConform h

theorem conforms_pick {t : Table} {r : Row} (h : r.conforms t.schema = true) (cs : List Nat) :
    Row.conforms (pick cs r) (cs.map t.kind) = true := by
  rw [Row.conforms_iff, pick, List.map_map]
  exact List.map_congr_left fun c _ => Row.kind_cell h c

section
variable {t : Table} (h : t.RowsConform)
include h

theorem keep_eq_gather (p : Row → Bool) : keep t p = keepBy gather t p :=
  ofRows_eq_gather fun r hr => h r (List.mem_filter.mp hr).1

theorem select_eq_gather (column : Int) (symbol literal : Text) (legacy : Bool) :
    select t column symbol literal legacy = selectBy gather t column symbol literal legacy := by
  unfold select selectBy
  cases Comparator.read symbol with
  | error e => rfl
  | ok comparator =>
    cases t.position column with
    | error e => rfl
    | ok c =>
      cases hv : readLiteral (t.kind c) literal with
      | error e => simp only [bind, Except.bind, hv]
      | ok value =>
        have hkeep := keep_eq_gather h fun r => (comparator.inMode legacy).holds (r.cell c) value
        simp only [bind, Except.bind, hv, filterM_tell h hv]
        exact congrArg Except.ok hkeep

theorem project_eq_gather (columns : List Int) :
    project t columns = projectBy gather t columns := by
  have hp : pickColumns t = pickColumnsBy gather t := by
    funext cs
    refine ofRows_eq_gather fun r hr => ?_
    obtain ⟨s, hs, rfl⟩ := List.mem_map.mp hr
    exact conforms_pick (h s hs) cs
  rw [project, projectBy, hp]

theorem unreferenced_eq_gather (column : Int) (referenced : Table) (refColumn : Int) :
    unreferenced t column referenced refColumn =
      unreferencedBy gather t column referenced refColumn := by
  have hk : keep t = keepBy gather t := funext fun p => keep_eq_gather h p
  unfold unreferenced unreferencedBy unreferencedRows
  rw [hk]

end

section
variable {l r : Table} (hl : l.RowsConform) (hr : r.RowsConform)
include hl hr

theorem conforms_of_mem_joinedRows {pairs : List (Nat × Nat)} {x : Row}
    (hx : x ∈ joinedRows l r pairs) : x.conforms (l.schema ++ r.schema) = true := by
  obtain ⟨a, ha, hx⟩ := List.mem_flatMap.mp hx
  obtain ⟨b, hb, rfl⟩ := List.mem_map.mp hx
  exact Row.conforms_append (hl a ha) (hr b (List.mem_filter.mp hb).1)

theorem product_eq_gather : product l r = productBy gather l r := by
  have hc : combined l r (l.rows.flatMap fun a => r.rows.map (a ++ ·)) =
      combinedBy gather l r (l.rows.flatMap fun a => r.rows.map (a ++ ·)) := by
    refine ofRows_eq_gather fun x hx => ?_
    obtain ⟨a, ha, hx⟩ := List.mem_flatMap.mp hx
    obtain ⟨b, hb, rfl⟩ := List.mem_map.mp hx
    exact Row.conforms_append (hl a ha) (hr b hb)
  rw [product, productBy, hc]

theorem joinOn_eq_gather (pairs : List (Nat × Nat)) :
    joinOn l r pairs = joinOnBy gather l r pairs := by
  have hc : combined l r (joinedRows l r pairs) = combinedBy gather l r (joinedRows l r pairs) :=
    ofRows_eq_gather fun x hx => conforms_of_mem_joinedRows hl hr hx
  rw [joinOn, joinOnBy, hc]

theorem outerJoinOn_eq_gather (pairs : List (Nat × Nat)) :
    outerJoinOn l r pairs = outerJoinOnBy gather l r pairs := by
  refine ofRows_eq_gather fun x hx => ?_
  rcases List.mem_append.mp hx with hx | hx
  · rcases List.mem_append.mp hx with hx | hx
    · exact conforms_of_mem_joinedRows hl hr hx
    · obtain ⟨a, ha, rfl⟩ := List.mem_map.mp hx
      exact Row.conforms_append (hl a (List.mem_filter.mp ha).1) (Row.conforms_nulls _)
  · obtain ⟨b, hb, rfl⟩ := List.mem_map.mp hx
    exact Row.conforms_append (Row.conforms_nulls _) (hr b (List.mem_filter.mp hb).1)

theorem join_eq_gather (pairs : List (Int × Int)) : join l r pairs = joinBy gather l r pairs := by
  have hj : joinOn l r = joinOnBy gather l r := funext fun ps => joinOn_eq_gather hl hr ps
  rw [join, joinBy, hj]

theorem outerJoin_eq_gather (pairs : List (Int × Int)) :
    outerJoin l r pairs = outerJoinBy gather l r pairs := by
  have hj : outerJoinOn l r = outerJoinOnBy gather l r :=
    funext fun ps => outerJoinOn_eq_gather hl hr ps
  rw [outerJoin, outerJoinBy, hj]

theorem naturalJoin_eq_gather (outer : Bool) :
    naturalJoin l r outer = naturalJoinBy gather l r outer := by
  have hi : join l r = joinBy gather l r := funext fun ps => join_eq_gather hl hr ps
  have ho : outerJoin l r = outerJoinBy gather l r := funext fun ps => outerJoin_eq_gather hl hr ps
  rw [naturalJoin, naturalJoinBy, hi, ho]

end

end TableAlgebra.Algebra
