import TableAlgebra.Proofs.Algebra.Join
import TableAlgebra.Proofs.Algebra.Selected

/-!
# Selections before joins

A selection by a column of one table may be made before the table is joined with another, or after.
All that it takes is what a join and a product have in common: their rows are among those of both
tables side by side, and a selection leaves its table the columns.

* `keep_ofRows`              a selection from a table that is just being made;
* `Narrowed`                 tables with fewer rows, which side by side are those that pass a test;
* `narrowed_left`, `narrowed_right`   a selection by a column of either table;
* `Narrowed.joinedRows_eq`, `Narrowed.keep_product`   the join and the product of narrower tables;
* `select_join`              selections before and after joins and products.
-/

namespace TableAlgebra.Algebra

open Table (WellFormed)

/-! ### Selections from new tables -/

theorem fitHeader_fitHeader (schema : Schema) (header : List Text) :
    Table.fitHeader schema (Table.fitHeader schema header) = Table.fitHeader schema header :=
  header_keep (t := .empty schema header) (Table.headerFits_fitHeader schema header) fun _ => true

theorem keep_ofRows (schema : Schema) (header : List Text) (rows : List Row) (p : Row → Bool) :
    keep (.ofRows schema header rows) p = .ofRows schema header (rows.filter p) := by
  have hrows : ((rows.filter (·.conforms schema)).filter p).filter (·.conforms schema) =
      (rows.filter p).filter (·.conforms schema) := by
    simp only [List.filter_filter]
    refine List.filter_congr fun r _ => ?_
    cases r.conforms schema <;> simp
  show Table.mk schema (Table.fitHeader schema (Table.fitHeader schema header)) _ = _
  rw [fitHeader_fitHeader]
  exact congrArg (Table.mk schema (Table.fitHeader schema header)) hrows

/-! ### Narrower tables -/

/-- Two tables have the same columns as two others, and their rows side by side are those of the
others that pass a test. -/
structure Narrowed (l r : Table) (test : Row → Bool) (l' r' : Table) : Prop where
  schemaLeft : l'.schema = l.schema
  schemaRight : r'.schema = r.schema
  headerLeft : l'.header = l.header
  headerRight : r'.header = r.header
  rowsLeft : l'.RowsConform
  rowsRight : r'.RowsConform
  beside_eq : beside l'.rows r'.rows = (beside l.rows r.rows).filter test

theorem rowsConform_keep (t : Table) (p : Row → Bool) : (keep t p).RowsConform :=
  (Table.wellFormed_ofRows ..).rows

section
variable {l r : Table} (hl : l.WellFormed) (hr : r.WellFormed) {c : Nat}
  (relation : Cell → Cell → Bool) (value : Cell)
include hl hr

theorem narrowed_left (hc : c < l.width) :
    Narrowed l r (fun x => relation (x.cell c) value) (selectRows l c relation value) r where
  schemaLeft := rfl
  schemaRight := rfl
  headerLeft := header_keep hl.header _
  headerRight := rfl
  rowsLeft := rowsConform_keep l _
  rowsRight := hr.rows
  beside_eq := by
    rw [rows_selectRows hl.rows]
    refine (filter_beside_left fun a ha b _ => ?_).symm
    rw [cell_append_left (hl.rows.length_eq ha ▸ hc)]

theorem narrowed_right :
    Narrowed l r (fun x => relation (x.cell (l.width + c)) value) l
      (selectRows r c relation value) where
  schemaLeft := rfl
  schemaRight := rfl
  headerLeft := rfl
  headerRight := header_keep hr.header _
  rowsLeft := hl.rows
  rowsRight := rowsConform_keep r _
  beside_eq := by
    rw [rows_selectRows hr.rows]
    refine (filter_beside_right fun a ha b _ => ?_).symm
    rw [← hl.rows.length_eq ha, cell_append_right]

end

namespace Narrowed

section
variable {l r l' r' : Table} {test : Row → Bool} (h : Narrowed l r test l' r')
include h

theorem width_left : l'.width = l.width := congrArg List.length h.schemaLeft

theorem width_right : r'.width = r.width := congrArg List.length h.schemaRight

theorem sameKind_eq : sameKind l' r' = sameKind l r := by
  funext p
  rw [sameKind, sameKind, Table.kind, Table.kind, h.schemaLeft, h.schemaRight]
  rfl

theorem combined_eq (rows : List Row) : combined l' r' rows = combined l r rows := by
  have hheader : combinedHeader l' r' = combinedHeader l r := by
    rw [combinedHeader, combinedHeader, Table.hasHeader, Table.hasHeader, h.headerLeft,
      h.headerRight]
    rfl
  rw [combined, combined, hheader, h.schemaLeft, h.schemaRight]

theorem joinedRows_eq (hl : l.RowsConform) {ps : List (Nat × Nat)}
    (hps : ∀ p ∈ ps, p.1 < l.width) :
    joinedRows l' r' ps = (joinedRows l r ps).filter test := by
  rw [joinedRows_eq_filter hl r hps, joinedRows_eq_filter h.rowsLeft r' (h.width_left ▸ hps),
    h.beside_eq, h.width_left, List.filter_comm]

theorem inRange {pairs : List (Int × Int)} (inRange : ∀ p ∈ pairs, InRange l r p) :
    ∀ p ∈ pairs, InRange l' r' p := by
  intro p hp
  have hrange := inRange p hp
  unfold InRange at hrange ⊢
  rwa [h.width_left, h.width_right]

theorem keep_product (hln : l.rows ≠ []) (hrn : r.rows ≠ []) :
    keep (product l r) test = combined l' r' (beside l'.rows r'.rows) := by
  rw [product_of_rows hln hrn, h.combined_eq, h.beside_eq]
  exact keep_ofRows ..

end

section
variable {l r l' r' : Table} {symbol literal : Text} {k : Comparator} {d : Nat} {value : Cell}
  {legacy : Bool} (h : Narrowed l r (fun x => k.test legacy (x.cell d) value) l' r')
  (hl : l.RowsConform) (hr : r.RowsConform) (hln : l.rows ≠ []) (hrn : r.rows ≠ [])
  (hsymbol : Comparator.read symbol = .ok k) (hd : d < l.width + r.width)
  (hvalue : ∀ t : Table, t.schema = l.schema ++ r.schema →
    readLiteral (t.kind d) literal = .ok value)
include hsymbol hd hvalue

/-- A selection from a table over the columns of both. -/
theorem select_eq {t : Table} (hrows : t.RowsConform) (ht : t.schema = l.schema ++ r.schema) :
    select t d symbol literal legacy = .ok (keep t fun x => k.test legacy (x.cell d) value) :=
  select_of_column hrows hsymbol (width_of_schema ht ▸ hd) (hvalue t ht) legacy

include hln hrn h

theorem select_product :
    ∃ p, select (product l r) d symbol literal legacy = .ok p ∧
      (l'.rows ≠ [] → r'.rows ≠ [] → p = product l' r') ∧
      (l'.rows = [] ∨ r'.rows = [] → p.rows = []) := by
  have hschema : (product l r).schema = l.schema ++ r.schema := by
    rw [product_of_rows hln hrn]
    rfl
  have hrows : (product l r).RowsConform := by
    rw [product_of_rows hln hrn]
    exact (Table.wellFormed_ofRows ..).rows
  refine ⟨_, select_eq hsymbol hd hvalue hrows hschema, fun hln' hrn' => ?_, fun hnone => ?_⟩
  · rw [h.keep_product hln hrn, product_of_rows hln' hrn']
  · rw [h.keep_product hln hrn, beside_eq_nil_iff.mpr hnone]
    rfl

include hl hr

theorem select_join_rows {pairs : List (Int × Int)} (inRange : ∀ p ∈ pairs, InRange l r p) :
    ∃ j x y, join l r pairs = .ok j ∧ select j d symbol literal legacy = .ok x ∧
      join l' r' pairs = .ok y ∧ x.rows = y.rows := by
  have hlt := lt_width_of_inRange inRange (sameKind l r)
  have hjoin := join_of_inRange inRange
  have hjoin' := join_of_inRange (h.inRange inRange)
  rw [h.sameKind_eq] at hjoin'
  have hcombined := joinOn_of_rows hln hrn
    ((pairs.map fun p => (p.1.toNat, p.2.toNat)).filter (sameKind l r))
  rw [hcombined] at hjoin
  have hrows := (Table.wellFormed_ofRows (l.schema ++ r.schema) (combinedHeader l r)
    (joinedRows l r ((pairs.map fun p => (p.1.toNat, p.2.toNat)).filter (sameKind l r)))).rows
  refine ⟨_, _, _, hjoin, select_eq hsymbol hd hvalue hrows rfl, hjoin', ?_⟩
  rw [combined, keep_ofRows, rows_joinOn h.rowsLeft h.rowsRight,
    h.joinedRows_eq hl hlt]
  exact rows_combined fun x hx => conforms_of_mem_joinedRows hl hr (List.mem_filter.mp hx).1

end

end Narrowed

/-! ### Selections before and after -/

/-- A selection by a column of either table may be made before a join or after, as far as the rows
go. It may be made before a product or after if it keeps a row, and otherwise the product that is
selected from has no rows left. -/
theorem select_join {l r : Table} (hl : l.WellFormed) (hr : r.WellFormed) (hln : l.rows ≠ [])
    (hrn : r.rows ≠ []) {pairs : List (Int × Int)} (inRange : ∀ p ∈ pairs, InRange l r p)
    {symbol : Text} {k : Comparator} (hsymbol : Comparator.read symbol = .ok k) (literal : Text)
    (legacy : Bool) :
    (∀ c < l.width, IsLiteralFor (l.kind c) literal →
      ∃ s, select l c symbol literal legacy = .ok s ∧
        (∃ j x y, join l r pairs = .ok j ∧ select j c symbol literal legacy = .ok x ∧
          join s r pairs = .ok y ∧ x.rows = y.rows) ∧
        ∃ p, select (product l r) c symbol literal legacy = .ok p ∧
          (s.rows ≠ [] → p = product s r) ∧ (s.rows = [] → p.rows = [])) ∧
    ∀ c < r.width, IsLiteralFor (r.kind c) literal →
      ∃ s, select r c symbol literal legacy = .ok s ∧
        (∃ j x y, join l r pairs = .ok j ∧
          select j (l.width + c : Nat) symbol literal legacy = .ok x ∧
          join l s pairs = .ok y ∧ x.rows = y.rows) ∧
        ∃ p, select (product l r) (l.width + c : Nat) symbol literal legacy = .ok p ∧
          (s.rows ≠ [] → p = product l s) ∧ (s.rows = [] → p.rows = []) := by
  refine ⟨fun c hc hliteral => ?_, fun c hc hliteral => ?_⟩
  · obtain ⟨value, hvalue⟩ := exists_readLiteral hliteral
    have hnarrow := narrowed_left hl hr (k.test legacy) value hc
    have hd : c < l.width + r.width := by omega
    have hboth : ∀ t : Table, t.schema = l.schema ++ r.schema →
        readLiteral (t.kind c) literal = .ok value := by
      intro t ht
      rw [kind_left ht hc, hvalue]
    obtain ⟨p, hp, hsame, hnone⟩ := hnarrow.select_product hln hrn hsymbol hd hboth
    exact ⟨_, select_of_column hl.rows hsymbol hc hvalue legacy,
      hnarrow.select_join_rows hl.rows hr.rows hln hrn hsymbol hd hboth inRange,
      p, hp, fun hs => hsame hs hrn, fun hs => hnone (Or.inl hs)⟩
  · obtain ⟨value, hvalue⟩ := exists_readLiteral hliteral
    have hnarrow := narrowed_right (c := c) hl hr (k.test legacy) value
    have hd : l.width + c < l.width + r.width := by omega
    have hboth : ∀ t : Table, t.schema = l.schema ++ r.schema →
        readLiteral (t.kind (l.width + c)) literal = .ok value := by
      intro t ht
      rw [kind_right ht, hvalue]
    obtain ⟨p, hp, hsame, hnone⟩ := hnarrow.select_product hln hrn hsymbol hd hboth
    exact ⟨_, select_of_column hr.rows hsymbol hc hvalue legacy,
      hnarrow.select_join_rows hl.rows hr.rows hln hrn hsymbol hd hboth inRange,
      p, hp, fun hs => hsame hln hs, fun hs => hnone (Or.inr hs)⟩

/-- The null is not above one, so the bee is kept. No animal has five legs, and the product with no
legs left would be the animals. -/
theorem select_join_sample :
    Sample.animals.WellFormed ∧ Sample.legs.WellFormed ∧ Sample.animals.rows ≠ [] ∧
      Sample.legs.rows ≠ [] ∧
      (∀ p ∈ [((0 : Int), (0 : Int))], InRange Sample.animals Sample.legs p) ∧
      IsLiteralFor (Sample.animals.kind 0) " 1 " ∧ IsLiteralFor (Sample.legs.kind 0) "5" ∧
      Comparator.read " <=" = .ok .le ∧ Comparator.read "=" = .ok .eq ∧
      (∃ s j x y, select Sample.animals 0 " <=" " 1 " = .ok s ∧
        join Sample.animals Sample.legs [(0, 0)] = .ok j ∧ select j 0 " <=" " 1 " = .ok x ∧
        join s Sample.legs [(0, 0)] = .ok y ∧ x.rows = y.rows ∧
        y.rows = [[.numeric (some 1), .text (some "ant"), .numeric (some 1)],
          [.numeric (some 1), .text (some "ant"), .numeric (some 1)],
          [.numeric none, .text (some "bee"), .numeric none]] ∧
        select (product Sample.animals Sample.legs) 0 " <=" " 1 " = .ok (product s Sample.legs)) ∧
      ∃ s p, select Sample.legs 0 "=" "5" = .ok s ∧
        select (product Sample.animals Sample.legs) 2 "=" "5" = .ok p ∧ p.rows = [] ∧
        product Sample.animals s = Sample.animals := by
  have hl : Sample.animals.WellFormed := by decide
  have hr : Sample.legs.WellFormed := by decide
  have hln : Sample.animals.rows ≠ [] := by decide
  have hrn : Sample.legs.rows ≠ [] := by decide
  have inRange : ∀ p ∈ [((0 : Int), (0 : Int))], InRange Sample.animals Sample.legs p := by decide
  have hone : IsLiteralFor (Sample.animals.kind 0) " 1 " :=
    ⟨[], "1", by decide, by decide, by decide, by decide, by decide⟩
  have hfive : IsLiteralFor (Sample.legs.kind 0) "5" :=
    ⟨[], "5", by decide, by decide, by decide, by decide, by decide⟩
  have hle : Comparator.read " <=" = .ok .le := rfl
  have heq : Comparator.read "=" = .ok .eq := rfl
  obtain ⟨hleft, -⟩ := select_join hl hr hln hrn inRange hle " 1 " false
  obtain ⟨-, hright⟩ := select_join hl hr hln hrn inRange heq "5" false
  obtain ⟨s, hs, ⟨j, x, y, hj, hx, hy, hrows⟩, p, hp, hsame, -⟩ := hleft 0 (by decide) hone
  obtain ⟨u, hu, -, q, hq, -, hnone⟩ := hright 0 (by decide) hfive
  have hkept : s.rows ≠ [] := rows_ne_nil_of_ok hs (by decide)
  have hlost : u.rows = [] := map_eq_of_ok hu (f := Table.rows) (by decide)
  have hunit : product Sample.animals u = Sample.animals := by
    rw [product_of_right_nil hlost]
    rfl
  have hjoined : (select Sample.animals 0 " <=" " 1 " >>= fun s => join s Sample.legs [(0, 0)]) =
      .ok y := bind_eq_ok.mpr ⟨s, hs, hy⟩
  rw [hsame hkept] at hp
  exact ⟨hl, hr, hln, hrn, inRange, hone, hfive, hle, heq, ⟨s, j, x, y, hs, hj, hx, hy, hrows,
    map_eq_of_ok hjoined (f := Table.rows) (by decide), hp⟩, u, q, hu, hq, hnone hlost, hunit⟩

end TableAlgebra.Algebra
