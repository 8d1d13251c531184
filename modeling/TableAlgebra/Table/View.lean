import TableAlgebra.Table

/-!
# The aligned view of a table

Columns side by side, each as wide as its widest text but no wider than a limit, under their
labels and a rule, with a count of the rows below. A negative limit cuts characters from the end
instead. Not every table can be shown (`viewWithin`): each cell has to have a written form and each
row a text for every label, and there is a least limit, which only a table with columns can fall
short of.
-/

namespace TableAlgebra.Table

namespace View

/-- The text cut to a width: a negative width drops as many characters from the end. -/
def clip (w : Int) (cs : Text) : Text :=
  if 0 ≤ w then cs.take w.toNat else cs.take (cs.length - (-w).toNat)

/-- The text with spaces after it, up to a width. -/
def pad (w : Int) (cs : Text) : Text := cs ++ List.replicate (w.toNat - cs.length) (.char ' ')

/-- The labels of the columns: their names, or their positions if they have none. -/
def labels (t : Table) : List Text :=
  if t.hasHeader then t.header else (List.range t.width).map Text.ofNat

def body (t : Table) : List (List Text) := t.rows.map Row.fields

/-- The width of a column: that of its widest text, within the limit. -/
def columnWidth (limit : Int) (t : Table) (c : Nat) (label : Text) : Int :=
  let widest := (body t).foldl (fun w texts => max w (texts.getD c []).length) label.length
  min (widest : Int) limit

def widths (limit : Int) (t : Table) : List Int :=
  (labels t).mapIdx fun c label => columnWidth limit t c label

def line (ws : List Int) (texts : List Text) : Text :=
  Text.joined " | " (texts.zipWith (fun s w => pad w (clip w s)) ws)

def rule (ws : List Int) : Text :=
  Text.joined "-+-" (ws.map fun w => List.replicate w.toNat (.char '-'))

def footer (n : Nat) : Text := "(" ++ .ofNat n ++ " row(s))"

/-- The lines of the view: labels, rule and rows between blank lines, then the count. -/
def lines (limit : Int) (t : Table) : List Text :=
  let ws := widths limit t
  [[], line ws (labels t), rule ws] ++ (body t).map (line ws) ++ [[], footer t.rows.length]

end View

/-- The widest column that a view shows unless it is told otherwise. -/
def viewLimit : Int := 40

def view (t : Table) (limit : Int := viewLimit) : Text :=
  Text.joined "\n" (View.lines limit t)

/-- The least limit on a column: that of a signed number of 64 bits. -/
def View.leastLimit : Int := -9223372036854775808

/-- Every row has a text for every label. -/
def View.isFull (t : Table) : Bool := t.rows.all fun r => (View.labels t).length ≤ r.length

/-- The aligned view within any limit. A row that lacks a text for some label cannot be shown, and a
limit below the least is refused where there is a column. -/
def viewWithin (t : Table) (limit : Int) : Except Error Text :=
  if !t.isWritable then .error .integerTooLong
  else if !View.isFull t then .error .missingText
  else if limit < View.leastLimit && !(View.labels t).isEmpty then .error .limitTooLow
  else .ok (t.view limit)

/-! ### Laws -/

theorem viewWithin_of_le {t : Table} {limit : Int} (writable : t.isWritable = true)
    (full : View.isFull t = true) (h : View.leastLimit ≤ limit) :
    t.viewWithin limit = .ok (t.view limit) := by
  have hl : decide (limit < View.leastLimit) = false := decide_eq_false (Int.not_lt.mpr h)
  rw [viewWithin, writable, full, hl, Bool.false_and]
  rfl

end TableAlgebra.Table
