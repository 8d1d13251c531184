import Mathlib.Data.List.Forall2
import Mathlib.Data.List.GetD
import TableAlgebra.Proofs.Text.Decimal
import TableAlgebra.Proofs.Text.Pieces
import TableAlgebra.Table.View

/-!
# The columns of the aligned view

A column is as wide as its longest text, label included, but no wider than the limit, and each line
of the view gives every column its width. So the columns stand at the same places in all lines, and
a text loses its end only if it is longer than the limit. What a place shows can be read off from the
view itself, cut at its line feeds, as long as no text of the table has a line feed in it.

* `View.fitted limit t c`    the width of a column, by its longest text; `columnWidth_eq`;
* `View.shown w s`           a text in a column of some width; `pad_clip`, `shown_fitted`;
* `View.Aligned limit t text line`   the line shows a text for each column, where the column is;
* `View.aligned_joined`      lines that are put together from such texts;
* `View.aligned_line`, `View.aligned_rule`   the lines of the view;
* `splitOn_view`             the view is cut into them;
* `viewWithin_aligned`       the view as a whole.
-/

namespace TableAlgebra.Table

open Text.Numeral (bound maxDigits)

theorem length_labels {t : Table} (h : t.HeaderFits) : (View.labels t).length = t.width := by
  unfold View.labels hasHeader
  split
  · next hh =>
    have hne : t.header ≠ [] := by simpa using hh
    exact h.resolve_left hne
  · rw [List.length_map, List.length_range]

/-- Every row has a text for every label. -/
theorem WellFormed.isFull {t : Table} (h : t.WellFormed) : View.isFull t = true := by
  refine List.all_eq_true.mpr fun r hr => decide_eq_true ?_
  rw [length_labels h.header, Row.length_of_conforms (h.rows r hr)]
  exact Nat.le_refl _

namespace View

/-! ### Texts of a column -/

/-- What a column is labelled with. -/
def labelAt (t : Table) (c : Nat) : Text := (labels t).getD c []

/-- The texts of a column: its label, and the written forms of its cells. -/
def column (t : Table) (c : Nat) : List Text := labelAt t c :: t.rows.map fun r => (r.cell c).written

theorem getD_fields (r : Row) (c : Nat) : r.fields.getD c [] = (r.cell c).written := by
  rw [Row.fields, Row.cell, List.getD_eq_getElem?_getD, List.getD_eq_getElem?_getD,
    List.getElem?_map]
  cases r[c]? <;> rfl

theorem map_labelAt_range {t : Table} (h : t.HeaderFits) :
    (List.range t.width).map (labelAt t) = labels t := by
  rw [← length_labels h]
  exact map_getD_range (labels t) []

theorem map_written_range {t : Table} (h : t.RowsConform) {r : Row} (hr : r ∈ t.rows) :
    ((List.range t.width).map fun c => (r.cell c).written) = r.fields := by
  rw [← h.length_eq hr, ← Function.comp_def, ← List.map_map]
  exact congrArg Row.fields (map_getD_range r _)

/-! ### Widths -/

def longest (texts : List Text) : Nat := (texts.map List.length).max?.getD 0

/-- The width of a column: the length of its longest text, but no more than the limit. -/
def fitted (limit : Nat) (t : Table) (c : Nat) : Nat := min limit (longest (column t c))

theorem length_le_longest {texts : List Text} {s : Text} (h : s ∈ texts) :
    s.length ≤ longest texts :=
  List.le_max?_getD_of_mem (List.mem_map_of_mem h)

theorem columnWidth_eq (limit : Nat) (t : Table) (c : Nat) :
    columnWidth limit t c (labelAt t c) = fitted limit t c := by
  have hlongest : (body t).foldl (fun w texts => max w (texts.getD c []).length)
      (labelAt t c).length = longest (column t c) := by
    rw [longest, column, List.map_cons, List.max?_cons', Option.getD_some, body, List.map_map,
      List.foldl_map, List.foldl_map]
    simp only [getD_fields, Function.comp_apply]
  rw [columnWidth, hlongest, fitted]
  omega

theorem widths_eq {t : Table} (h : t.HeaderFits) (limit : Nat) :
    widths limit t = (List.range t.width).map fun c => (fitted limit t c : Int) := by
  apply List.ext_getElem
  · simp [widths, length_labels h]
  · intro c hc hc'
    rw [widths, List.length_mapIdx] at hc
    have hlabel : (labels t)[c] = labelAt t c := (List.getD_eq_getElem _ _ hc).symm
    simp only [widths, List.getElem_mapIdx, List.getElem_map, List.getElem_range]
    rw [hlabel, columnWidth_eq]

/-! ### Texts in a column -/

/-- A text in a column of some width: cut to it, or with blanks after it. -/
def shown (w : Nat) (s : Text) : Text := s.take w ++ List.replicate (w - s.length) (.char ' ')

theorem length_shown (w : Nat) (s : Text) : (shown w s).length = w := by
  rw [shown, List.length_append, List.length_take, List.length_replicate]
  omega

theorem pad_clip (w : Nat) (s : Text) : pad w (clip w s) = shown w s := by
  have hclip : clip w s = s.take w := if_pos (Int.natCast_nonneg w)
  have hblanks : w - (s.take w).length = w - s.length := by
    rw [List.length_take]
    omega
  rw [pad, hclip, Int.toNat_natCast, hblanks, shown]

/-- A text that is no longer than the limit is shown whole. -/
theorem shown_fitted {limit : Nat} {t : Table} {c : Nat} {s : Text} (h : s ∈ column t c)
    (hlimit : s.length ≤ limit) :
    shown (fitted limit t c) s = s ++ List.replicate (fitted limit t c - s.length) (.char ' ') := by
  have hwide : s.length ≤ fitted limit t c := Nat.le_min.mpr ⟨hlimit, length_le_longest h⟩
  rw [shown, List.take_of_length_le hwide]

/-! ### Lines -/

/-- Where a column starts: behind the columns before it, with three characters after each. -/
def offset (limit : Nat) (t : Table) (c : Nat) : Nat :=
  ((List.range c).map fun j => fitted limit t j + 3).sum

/-- The line has a text for every column, where the column starts and as wide as it is, and is no
longer than the columns with three characters between each two of them. -/
structure Aligned (limit : Nat) (t : Table) (text : Nat → Text) (line : Text) : Prop where
  length : line.length =
    ((List.range t.width).map (fitted limit t)).sum + 3 * (t.width - 1)
  columns : ∀ c < t.width, (text c).length = fitted limit t c ∧
    text c <+: line.drop (offset limit t c)

theorem aligned_joined {limit : Nat} {t : Table} {text : Nat → Text} {separator : Text}
    (hs : separator.length = 3) (htext : ∀ c, (text c).length = fitted limit t c) :
    Aligned limit t text (Text.joined separator ((List.range t.width).map text)) where
  length := by
    rw [Text.length_joined, List.map_map, List.length_map, List.length_range, hs]
    exact congrArg (fun f => ((List.range t.width).map f).sum + _) (funext htext)
  columns c hc := by
    have hi : c < ((List.range t.width).map text).length := by simpa using hc
    have hprefix := Text.prefix_drop_joined separator hi
    rw [List.getElem_map, List.getElem_range, ← List.map_take, List.take_range,
      Nat.min_eq_left (Nat.le_of_lt hc), List.map_map, hs] at hprefix
    have hoffset : offset limit t c =
        ((List.range c).map ((fun s : Text => s.length + 3) ∘ text)).sum := by
      simp only [offset, Function.comp_def, htext]
    rw [← hoffset] at hprefix
    exact ⟨htext c, hprefix⟩

section
variable {t : Table} (h : t.HeaderFits) (limit : Nat)
include h

theorem line_eq (text : Nat → Text) :
    line (widths limit t) ((List.range t.width).map text) =
      Text.joined " | " ((List.range t.width).map fun c => shown (fitted limit t c) (text c)) := by
  rw [line, widths_eq h, List.zipWith_map, List.zipWith_self]
  simp only [pad_clip]

theorem rule_eq :
    rule (widths limit t) = Text.joined "-+-" ((List.range t.width).map fun c =>
      List.replicate (fitted limit t c) (.char '-')) := by
  rw [rule, widths_eq h, List.map_map]
  rfl

theorem aligned_line (text : Nat → Text) :
    Aligned limit t (fun c => shown (fitted limit t c) (text c))
      (line (widths limit t) ((List.range t.width).map text)) := by
  rw [line_eq h]
  exact aligned_joined rfl fun c => length_shown _ _

theorem aligned_rule :
    Aligned limit t (fun c => List.replicate (fitted limit t c) (.char '-'))
      (rule (widths limit t)) := by
  rw [rule_eq h]
  exact aligned_joined rfl fun c => List.length_replicate

end

/-! ### Line feeds -/

theorem newline_not_mem_ofNat (n : Nat) : .char '\n' ∉ Text.ofNat n :=
  Text.Numeral.newline_not_mem fun _ => Text.isDigit_of_mem_ofNat

theorem newline_not_mem_ofInt (n : Int) : .char '\n' ∉ Text.ofInt n := by
  intro hmem
  rcases Text.mem_ofInt hmem with h | h
  · exact absurd h (by decide)
  · cases h

theorem newline_not_mem_joined {separator : Text} {ts : List Text}
    (hs : .char '\n' ∉ separator) (h : ∀ t ∈ ts, .char '\n' ∉ t) :
    .char '\n' ∉ Text.joined separator ts := by
  intro hmem
  rcases Text.mem_joined hmem with hmem | ⟨t, ht, hmem⟩
  · exact hs hmem
  · exact h t ht hmem

theorem newline_not_mem_shown {w : Nat} {s : Text} (h : .char '\n' ∉ s) :
    .char '\n' ∉ shown w s := by
  rw [shown, List.mem_append, not_or]
  refine ⟨fun hmem => h (List.mem_of_mem_take hmem), fun hmem => ?_⟩
  exact absurd (List.eq_of_mem_replicate hmem) (by decide)

theorem newline_not_mem_labelAt {t : Table} (h : ∀ name ∈ t.header, .char '\n' ∉ name) (c : Nat) :
    .char '\n' ∉ labelAt t c := by
  have hlabels : ∀ s ∈ labels t, .char '\n' ∉ s := by
    unfold labels
    split
    · exact h
    · intro s hs
      obtain ⟨i, -, rfl⟩ := List.mem_map.mp hs
      exact newline_not_mem_ofNat i
  exact forall_getD (p := fun s : Text => .char '\n' ∉ s) List.not_mem_nil hlabels c

theorem newline_not_mem_cell {r : Row} (h : ∀ cell ∈ r, .char '\n' ∉ cell.written) (c : Nat) :
    .char '\n' ∉ (r.cell c).written :=
  forall_getD (p := fun cell : Cell => .char '\n' ∉ cell.written) List.not_mem_nil h c

theorem newline_not_mem_line {t : Table} (h : t.HeaderFits) (limit : Nat) {text : Nat → Text}
    (htext : ∀ c, .char '\n' ∉ text c) :
    .char '\n' ∉ line (widths limit t) ((List.range t.width).map text) := by
  rw [line_eq h]
  refine newline_not_mem_joined (by decide) fun s hs => ?_
  obtain ⟨c, -, rfl⟩ := List.mem_map.mp hs
  exact newline_not_mem_shown (htext c)

theorem newline_not_mem_rule (ws : List Int) : .char '\n' ∉ rule ws := by
  refine newline_not_mem_joined (by decide) fun s hs => ?_
  obtain ⟨w, -, rfl⟩ := List.mem_map.mp hs
  exact fun hmem => absurd (List.eq_of_mem_replicate hmem) (by decide)

theorem newline_not_mem_footer (n : Nat) : .char '\n' ∉ footer n := by
  rw [footer, List.mem_append, List.mem_append, not_or, not_or]
  exact ⟨⟨by decide, newline_not_mem_ofNat n⟩, by decide⟩

end View

/-! ### The view -/

section
variable {t : Table} (h : t.WellFormed) (hnames : ∀ name ∈ t.header, .char '\n' ∉ name)
  (hcells : ∀ r ∈ t.rows, ∀ cell ∈ r, .char '\n' ∉ cell.written) (limit : Nat)
include h hnames hcells

open View

theorem splitOn_view : Text.splitOn (.char '\n') (t.view limit) = lines limit t := by
  refine Text.splitOn_joined (List.cons_ne_nil _ _) fun s hs => ?_
  simp only [lines, List.cons_append, List.nil_append, List.mem_cons, List.mem_append,
    List.mem_map, List.not_mem_nil, or_false] at hs
  rcases hs with rfl | rfl | rfl | ⟨_, hbody, rfl⟩ | rfl | rfl
  · exact List.not_mem_nil
  · rw [← map_labelAt_range h.header]
    exact newline_not_mem_line h.header limit (newline_not_mem_labelAt hnames)
  · exact newline_not_mem_rule _
  · obtain ⟨r, hr, rfl⟩ := List.mem_map.mp hbody
    rw [← map_written_range h.rows hr]
    exact newline_not_mem_line h.header limit (newline_not_mem_cell (hcells r hr))
  · exact List.not_mem_nil
  · exact newline_not_mem_footer _

/-- A table with an integer of too many digits has no view. Any other one has, and it is a line of
labels, a rule and a line for each row in order, with a blank line before and after them, and then
the count of the rows. All these lines are equally long, and each column stands at one place in all
of them; a text is cut only if it is longer than the limit. -/
theorem viewWithin_aligned :
    ((∃ r ∈ t.rows, ∃ n, .numeric (some n) ∈ r ∧ bound maxDigits ≤ n.natAbs) →
      t.viewWithin limit = .error .integerTooLong) ∧
    ((∀ r ∈ t.rows, ∀ n, .numeric (some n) ∈ r → n.natAbs < bound maxDigits) →
      ∃ view label rule rowLines, t.viewWithin limit = .ok view ∧
        Text.splitOn (.char '\n') view =
          [[], label, rule] ++ rowLines ++ [[], footer t.rows.length] ∧
        Aligned limit t (fun c => shown (fitted limit t c) (labelAt t c)) label ∧
        Aligned limit t (fun c => List.replicate (fitted limit t c) (.char '-')) rule ∧
        List.Forall₂ (fun r => Aligned limit t fun c => shown (fitted limit t c) (r.cell c).written)
          t.rows rowLines ∧
        ∀ c, ∀ s ∈ column t c, s.length ≤ limit → shown (fitted limit t c) s =
          s ++ List.replicate (fitted limit t c - s.length) (.char ' ')) := by
  constructor
  · rintro ⟨r, hr, n, hn, hlong⟩
    have hw : t.isWritable = false := Bool.eq_false_iff.mpr fun hw =>
      Nat.not_lt.mpr hlong (writable_iff.mp hw r hr n hn)
    rw [viewWithin, hw]
    rfl
  · intro hw
    have hleast : leastLimit ≤ (limit : Int) := Int.le_trans (by decide) (Int.natCast_nonneg limit)
    refine ⟨t.view limit, _, _, (body t).map (line (widths limit t)),
      viewWithin_of_le (writable_iff.mpr hw) h.isFull hleast, splitOn_view h hnames hcells limit,
      ?_, aligned_rule h.header limit, ?_, fun c s => shown_fitted⟩
    · rw [← map_labelAt_range h.header]
      exact aligned_line h.header limit (labelAt t)
    · rw [body, List.map_map, List.forall₂_map_right_iff, List.forall₂_same]
      intro r hr
      rw [Function.comp_apply, ← map_written_range h.rows hr]
      exact aligned_line h.header limit fun c => (r.cell c).written

end

namespace Sample

def pupils : Table :=
  { schema := [.numeric, .text], header := ["id", "name"],
    rows := [[.numeric (some 7), .text (some "Albert")], [.numeric (some 12), .text none]] }

def single (n : Int) : Table := { schema := [.numeric], rows := [[.numeric (some n)]] }

end Sample

/-- Of a text that is longer than the limit the front is shown, and of a null as much blank. -/
theorem viewWithin_aligned_sample :
    Sample.pupils.WellFormed ∧ (∀ name ∈ Sample.pupils.header, .char '\n' ∉ name) ∧
      (∀ r ∈ Sample.pupils.rows, ∀ cell ∈ r, .char '\n' ∉ cell.written) ∧
      (∃ view label rule first second, Sample.pupils.viewWithin 4 = .ok view ∧
        Text.splitOn (.char '\n') view = [[], label, rule, first, second, [], "(2 row(s))"] ∧
        label.length = 9 ∧ rule.length = 9 ∧ first.length = 9 ∧ second.length = 9 ∧
        ("Albe" : Text) <+: first.drop 5 ∧ ("    " : Text) <+: second.drop 5) := by
  have h : Sample.pupils.WellFormed := by decide
  have hnames : ∀ name ∈ Sample.pupils.header, Text.Point.char '\n' ∉ name := by decide
  have hcells : ∀ r ∈ Sample.pupils.rows, ∀ cell ∈ r, Text.Point.char '\n' ∉ cell.written := by
    decide
  have hw : Sample.pupils.isWritable = true := by decide
  obtain ⟨view, label, rule, rowLines, hview, hlines, hlabel, hrule, hrows, -⟩ :=
    (viewWithin_aligned h hnames hcells 4).2 (writable_iff.mp hw)
  obtain ⟨first, _, hfirst, hrest, rfl⟩ := List.forall₂_cons_left_iff.mp hrows
  obtain ⟨second, _, hsecond, hnil, rfl⟩ := List.forall₂_cons_left_iff.mp hrest
  cases hnil
  exact ⟨h, hnames, hcells, view, label, rule, first, second, hview, hlines, hlabel.length,
    hrule.length, hfirst.length, hsecond.length, (hfirst.columns 1 (by decide)).2,
    (hsecond.columns 1 (by decide)).2⟩

theorem Sample.wellFormed_single (n : Int) : (single n).WellFormed :=
  ⟨List.forall_mem_singleton.mpr rfl, .inl rfl⟩

theorem Sample.newline_not_mem_single (n : Int) :
    ∀ r ∈ (single n).rows, ∀ cell ∈ r, .char '\n' ∉ cell.written :=
  List.forall_mem_singleton.mpr (List.forall_mem_singleton.mpr (View.newline_not_mem_ofInt n))

/-- The least number of too many digits is not shown. -/
theorem not_viewWithin_aligned :
    ¬∀ (t : Table) (limit : Nat), t.WellFormed → t.schema ≠ [] →
      (∀ name ∈ t.header, .char '\n' ∉ name) →
      (∀ r ∈ t.rows, ∀ cell ∈ r, .char '\n' ∉ cell.written) →
      ∃ view, t.viewWithin limit = .ok view := by
  intro h
  have hlong : (Sample.single (bound maxDigits)).isWritable = false := by
    rw [isWritable, Sample.single, List.all_cons, Row.isWritable, List.all_cons, Cell.isWritable,
      Text.Numeral.isShort_bound]
    rfl
  obtain ⟨view, hview⟩ := h _ 40 (Sample.wellFormed_single _) (List.cons_ne_nil _ _)
    (fun _ hname => absurd hname List.not_mem_nil) (Sample.newline_not_mem_single _)
  rw [viewWithin, hlong] at hview
  cases hview

end TableAlgebra.Table
