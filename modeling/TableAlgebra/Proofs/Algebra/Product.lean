import TableAlgebra.Proofs.Algebra.Outer

/-!
# Products

The rows of a product are all rows of one table beside all rows of the other. Putting lists of rows
side by side is associative, and so is putting tables side by side, as a header of the result is
there just if every table has one.

* `beside`               all rows of one list with all rows of another behind them;
* `filter_beside_left`, `filter_beside_right`   rows may be chosen before or after;
* `combined_combined`    three tables side by side, whichever two come together first;
* `product_assoc`        products are associative, and tables without rows do nothing to them.
-/

namespace TableAlgebra.Algebra

/-! ### Rows side by side -/

/-- All rows of the first list with all rows of the second behind them, the second running
faster. -/
def beside (xs ys : List Row) : List Row := xs.flatMap fun a => ys.map (a ++ ·)

theorem nil_beside (ys : List Row) : beside [] ys = [] := rfl

theorem beside_nil (xs : List Row) : beside xs [] = [] := List.flatMap_eq_nil_iff.mpr fun _ _ => rfl

theorem mem_beside {xs ys : List Row} {x : Row} :
    x ∈ beside xs ys ↔ ∃ a ∈ xs, ∃ b ∈ ys, a ++ b = x := by
  simp only [beside, List.mem_flatMap, List.mem_map]

theorem beside_eq_nil_iff {xs ys : List Row} : beside xs ys = [] ↔ xs = [] ∨ ys = [] := by
  constructor
  · intro h
    by_contra hne
    obtain ⟨hx, hy⟩ := not_or.mp hne
    obtain ⟨a, ha⟩ := List.exists_mem_of_ne_nil xs hx
    obtain ⟨b, hb⟩ := List.exists_mem_of_ne_nil ys hy
    have hmem : a ++ b ∈ beside xs ys := mem_beside.mpr ⟨a, ha, b, hb, rfl⟩
    rw [h] at hmem
    cases hmem
  · rintro (rfl | rfl)
    · exact nil_beside ys
    · exact beside_nil xs

theorem beside_assoc (xs ys zs : List Row) :
    beside (beside xs ys) zs = beside xs (beside ys zs) := by
  have hrow : ∀ a : Row, (ys.map (a ++ ·)).flatMap (fun x => zs.map (x ++ ·)) =
      (beside ys zs).map (a ++ ·) := by
    intro a
    rw [List.flatMap_map, beside, List.map_flatMap]
    simp only [List.map_map, Function.comp_def, List.append_assoc]
  rw [beside, beside, List.flatMap_assoc]
  exact congrArg (fun f => xs.flatMap f) (funext hrow)

theorem length_beside (xs ys : List Row) : (beside xs ys).length = xs.length * ys.length := by
  induction xs with
  | nil => rw [nil_beside, List.length_nil, Nat.zero_mul]
  | cons a xs ih =>
    show (ys.map (a ++ ·) ++ beside xs ys).length = (xs.length + 1) * ys.length
    rw [List.length_append, List.length_map, ih, Nat.succ_mul, Nat.add_comm]

theorem conforms_of_mem_beside {xs ys : List Row} {p q : Schema}
    (hx : ∀ a ∈ xs, a.conforms p = true) (hy : ∀ b ∈ ys, b.conforms q = true) {x : Row}
    (h : x ∈ beside xs ys) : x.conforms (p ++ q) = true := by
  obtain ⟨a, ha, b, hb, rfl⟩ := mem_beside.mp h
  exact Row.conforms_append (hx a ha) (hy b hb)

section
variable {xs ys : List Row} {p q : Row → Bool}

/-- A test that only the left part of a row decides can be made on the left rows. -/
theorem filter_beside_left (h : ∀ a ∈ xs, ∀ b ∈ ys, q (a ++ b) = p a) :
    (beside xs ys).filter q = beside (xs.filter p) ys := by
  induction xs with
  | nil => rfl
  | cons a xs ih =>
    have ih := ih fun a' ha' => h a' (List.mem_cons_of_mem a ha')
    have hrow : (ys.map (a ++ ·)).filter q = if p a then ys.map (a ++ ·) else [] := by
      split
      · next hp =>
        refine List.filter_eq_self.mpr fun x hx => ?_
        obtain ⟨b, hb, rfl⟩ := List.mem_map.mp hx
        rw [h a List.mem_cons_self b hb, hp]
      · next hp =>
        refine List.filter_eq_nil_iff.mpr fun x hx => ?_
        obtain ⟨b, hb, rfl⟩ := List.mem_map.mp hx
        rwa [h a List.mem_cons_self b hb]
    show (ys.map (a ++ ·) ++ beside xs ys).filter q = _
    rw [List.filter_append, hrow, ih, List.filter_cons]
    split <;> rfl

/-- A test that only the right part of a row decides can be made on the right rows. -/
theorem filter_beside_right (h : ∀ a ∈ xs, ∀ b ∈ ys, q (a ++ b) = p b) :
    (beside xs ys).filter q = beside xs (ys.filter p) := by
  have hrow : ∀ a ∈ xs, (ys.map (a ++ ·)).filter q = (ys.filter p).map (a ++ ·) := by
    intro a ha
    rw [List.filter_map]
    exact congrArg _ (List.filter_congr fun b hb => h a ha b hb)
  rw [beside, List.filter_flatMap]
  exact List.flatMap_congr hrow

end

/-! ### Tables side by side -/

section
variable {l r : Table}

theorem product_of_rows (hl : l.rows ≠ []) (hr : r.rows ≠ []) :
    product l r = combined l r (beside l.rows r.rows) := by
  have hl : l.rows.isEmpty = false := List.isEmpty_eq_false_iff.mpr hl
  have hr : r.rows.isEmpty = false := List.isEmpty_eq_false_iff.mpr hr
  rw [product, hl, hr]
  rfl

theorem rows_product (hl : l.RowsConform) (hr : r.RowsConform) (hln : l.rows ≠ [])
    (hrn : r.rows ≠ []) : (product l r).rows = beside l.rows r.rows := by
  rw [product_of_rows hln hrn]
  exact rows_combined fun x hx => conforms_of_mem_beside hl hr hx

theorem wellFormed_combined (rows : List Row) : (combined l r rows).WellFormed :=
  Table.wellFormed_ofRows ..

end

section
variable {a b c : Table} (ha : a.WellFormed) (hb : b.WellFormed) (hc : c.WellFormed)
include ha hb

/-- Two tables side by side have a header just if both have one. -/
theorem hasHeader_combined (rows : List Row) :
    (combined a b rows).hasHeader = (a.hasHeader && b.hasHeader) := by
  rw [Table.hasHeader, header_combined ha hb, combinedHeader]
  split
  · next h =>
    rw [h]
    have hne : a.header ≠ [] := by
      rintro e
      rw [Table.hasHeader, e] at h
      cases h
    simp [hne]
  · next h => exact (Bool.eq_false_iff.mpr h).symm

include hc

theorem combined_combined (rs ss xs : List Row) :
    combined (combined a b rs) c xs = combined a (combined b c ss) xs := by
  have hschema : (combined a b rs).schema ++ c.schema = a.schema ++ (combined b c ss).schema :=
    List.append_assoc ..
  have hheader : combinedHeader (combined a b rs) c = combinedHeader a (combined b c ss) := by
    rw [combinedHeader, combinedHeader, hasHeader_combined ha hb, hasHeader_combined hb hc,
      header_combined ha hb, header_combined hb hc, combinedHeader, combinedHeader]
    cases a.hasHeader <;> cases b.hasHeader <;> cases c.hasHeader <;> simp
  show Table.ofRows _ _ xs = Table.ofRows _ _ xs
  rw [hschema, hheader]

end

/-! ### Tables without rows -/

/-- The table, or the one without columns in place of one without rows. -/
def collapsed (t : Table) : Table := if t.rows.isEmpty then .empty [] else t

theorem collapsed_of_rows {t : Table} (h : t.rows ≠ []) : collapsed t = t := by
  rw [collapsed, List.isEmpty_eq_false_iff.mpr h]
  rfl

theorem rows_collapsed (t : Table) : (collapsed t).rows = t.rows := by
  unfold collapsed
  split
  · next h => exact (List.isEmpty_iff.mp h).symm
  · rfl

theorem collapsed_collapsed (t : Table) : collapsed (collapsed t) = collapsed t := by
  rw [collapsed, rows_collapsed]
  unfold collapsed
  split <;> rfl

section
variable {l r : Table}

theorem product_of_left_nil (h : l.rows = []) : product l r = collapsed r := by
  rw [product, h, collapsed]
  cases r.rows.isEmpty <;> rfl

theorem product_of_right_nil (h : r.rows = []) : product l r = collapsed l := by
  rw [product, h, collapsed]
  cases l.rows.isEmpty <;> rfl

theorem product_collapsed_left : product (collapsed l) r = product l r := by
  by_cases h : l.rows = []
  · rw [product_of_left_nil h, product_of_left_nil ((rows_collapsed l).trans h)]
  · rw [collapsed_of_rows h]

theorem product_collapsed_right : product l (collapsed r) = product l r := by
  by_cases h : r.rows = []
  · rw [product_of_right_nil h, product_of_right_nil ((rows_collapsed r).trans h)]
  · rw [collapsed_of_rows h]

theorem rows_product_ne_nil (hl : l.RowsConform) (hr : r.RowsConform) (hln : l.rows ≠ [])
    (hrn : r.rows ≠ []) : (product l r).rows ≠ [] := by
  rw [rows_product hl hr hln hrn, Ne, beside_eq_nil_iff]
  exact not_or.mpr ⟨hln, hrn⟩

theorem collapsed_product (hl : l.RowsConform) (hr : r.RowsConform) :
    collapsed (product l r) = product l r := by
  by_cases hln : l.rows = []
  · rw [product_of_left_nil hln, collapsed_collapsed]
  · by_cases hrn : r.rows = []
    · rw [product_of_right_nil hrn, collapsed_collapsed]
    · exact collapsed_of_rows (rows_product_ne_nil hl hr hln hrn)

end

/-! ### Products -/

/-- A product is the same in whichever order its tables come together. A table without rows leaves
one with rows as it is, on either side, and of two tables with rows the numbers are multiplied. -/
theorem product_assoc {a b c : Table} (ha : a.WellFormed) (hb : b.WellFormed) (hc : c.WellFormed) :
    product (product a b) c = product a (product b c) ∧
    (a.rows = [] → b.rows ≠ [] → product a b = b ∧ product b a = b) ∧
    (a.rows ≠ [] → b.rows ≠ [] →
      (product a b).rows.length = a.rows.length * b.rows.length) := by
  refine ⟨?_, fun han hbn => ?_, fun han hbn => ?_⟩
  · by_cases han : a.rows = []
    · rw [product_of_left_nil han, product_of_left_nil han, product_collapsed_left,
        collapsed_product hb.rows hc.rows]
    · by_cases hbn : b.rows = []
      · rw [product_of_right_nil hbn, product_of_left_nil hbn, product_collapsed_left,
          product_collapsed_right]
      · by_cases hcn : c.rows = []
        · rw [product_of_right_nil hcn, product_of_right_nil hcn, product_collapsed_right,
            collapsed_product ha.rows hb.rows]
        · have habn := rows_product_ne_nil ha.rows hb.rows han hbn
          have hbcn := rows_product_ne_nil hb.rows hc.rows hbn hcn
          rw [product_of_rows habn hcn, product_of_rows han hbcn,
            rows_product ha.rows hb.rows han hbn, rows_product hb.rows hc.rows hbn hcn,
            beside_assoc, product_of_rows han hbn, product_of_rows hbn hcn]
          exact combined_combined ha hb hc ..
  · rw [product_of_left_nil han, product_of_right_nil han, collapsed_of_rows hbn]
    exact ⟨rfl, rfl⟩
  · rw [rows_product ha.rows hb.rows han hbn, length_beside]

/-! ### Headers and tables without rows -/

namespace Sample

def colours : Table :=
  { schema := [.text], header := ["colour"], rows := [[.text (some "red")], [.text none]] }

def sizes : Table := { schema := [.numeric], header := ["size"], rows := [[.numeric (some 1)]] }

def shapes : Table := { schema := [.text], rows := [[.text (some "disc")], [.text (some "bar")]] }

def nothing : Table := { schema := [.numeric, .text], header := ["a", "b"] }

end Sample

/-- The shapes have no header, so the product has none. -/
theorem product_assoc_sample :
    Sample.colours.WellFormed ∧ Sample.sizes.WellFormed ∧ Sample.shapes.WellFormed ∧
      Sample.nothing.WellFormed ∧
      product (product Sample.colours Sample.sizes) Sample.shapes =
        product Sample.colours (product Sample.sizes Sample.shapes) ∧
      (product Sample.colours (product Sample.sizes Sample.shapes)).header = [] ∧
      (product Sample.colours Sample.sizes).header = ["colour", "size"] ∧
      (product Sample.colours Sample.shapes).rows.length = 2 * 2 ∧
      product Sample.nothing Sample.sizes = Sample.sizes ∧
      product Sample.sizes Sample.nothing = Sample.sizes := by
  have hc : Sample.colours.WellFormed := by decide
  have hs : Sample.sizes.WellFormed := by decide
  have hf : Sample.shapes.WellFormed := by decide
  have hn : Sample.nothing.WellFormed := by decide
  obtain ⟨hassoc, -, -⟩ := product_assoc hc hs hf
  obtain ⟨-, -, hlength⟩ := product_assoc hc hf hs
  obtain ⟨-, hunit, -⟩ := product_assoc hn hs hf
  obtain ⟨hleft, hright⟩ := hunit rfl (by decide)
  exact ⟨hc, hs, hf, hn, hassoc, by decide, by decide, hlength (by decide) (by decide), hleft,
    hright⟩

end TableAlgebra.Algebra
