import TableAlgebra.Proofs.Command.Lexemes
import TableAlgebra.Proofs.Text.Decimal

/-!
# Statements and their written forms

Not every statement can be written: names of tables and type tags have to be bare words, integers
must not be too long, and a text that ends in a backslash must be a bare word, since it cannot
stand in quotes. Each of the others has a text that is read as that statement.

* `Statement.IsWritable`   what a statement must be like;
* `Statement.written`      a text for it, laid out from its lexemes;
* `Derives.isWritable`     what readable lexemes spell can be written;
* `derives_lexemes`        the lexemes of a statement spell it, and can be read;
* `isWritable_iff`         so a statement can be written just if some text is read as it, and then
                           its own text is.
-/

namespace TableAlgebra

open Command
open Text (Numeral)

/-! ### What can be written -/

namespace Command

/-- A text that can stand in a command: bare, or in quotes. -/
def IsText (v : Text) : Prop := IsBareWord v ∨ v.getLast? ≠ some (.char '\\')

end Command

def ColumnRef.IsWritable : ColumnRef → Prop
  | .index n => n.natAbs < Numeral.bound Numeral.maxDigits
  | .name v => IsText v

namespace Command

def Operation.IsWritable : Operation → Prop
  | .rows t c r v => IsBareWord t ∧ c.IsWritable ∧ r ∈ comparisons.map Symbol.text ∧ IsText v
  | .columns t cs => IsBareWord t ∧ ∀ c ∈ cs, c.IsWritable
  | .product l r => IsBareWord l ∧ IsBareWord r
  | .join l r ps _ =>
    IsBareWord l ∧ IsBareWord r ∧ ps ≠ [] ∧ ∀ p ∈ ps, p.1.IsWritable ∧ p.2.IsWritable
  | .naturalJoin l r _ => IsBareWord l ∧ IsBareWord r
  | .orderBy t c => IsBareWord t ∧ c.IsWritable

def Statement.IsWritable : Statement → Prop
  | .define t types => IsBareWord t ∧ types ≠ [] ∧ ∀ w ∈ types, IsBareWord w
  | .load t source _ => IsBareWord t ∧ IsText source
  | .save t target => IsBareWord t ∧ IsText target
  | .print t => IsBareWord t
  | .check t c u d => IsBareWord t ∧ c.IsWritable ∧ IsBareWord u ∧ d.IsWritable
  | .remove t => IsBareWord t
  | .clear => True
  | .exit => True
  | .assign t o => IsBareWord t ∧ o.IsWritable

/-! ### How it is written -/

/-- The lexeme for a path, a value or the name of a column. -/
def ofText (v : Text) : Lexeme := if v.getLast? = some (.char '\\') then .word v else .quoted v

/-- The lexeme for a column. No lexeme stands for a number that is too long. -/
def ofColumn : ColumnRef → Lexeme
  | .index n =>
    if short : Numeral.isShort n = true then .integer ⟨n, short⟩ (Text.ofInt n)
    else .word (Text.ofInt n)
  | .name v => ofText v

def ofKeyword (k : Keyword) : Lexeme := .keyword k k.word.lower

def ofComparator (r : Text) : Lexeme :=
  .symbol ((comparisons.find? fun s => s.text = r).getD .equals)

def ofCall (outer : Bool) (op : Operator) (args : List Lexeme) : List Lexeme :=
  (if outer then [ofKeyword .outer] else []) ++ .word op.name :: parenthesized args

def Operation.lexemes : Operation → List Lexeme
  | .rows t c r v => ofCall false .rows [.word t, ofColumn c, ofComparator r, ofText v]
  | .columns t cs => ofCall false .columns (.word t :: cs.map ofColumn)
  | .product l r => ofCall false .product [.word l, .word r]
  | .join l r ps outer =>
    ofCall outer .join (.word l :: .word r :: ps.flatMap fun p => [ofColumn p.1, ofColumn p.2])
  | .naturalJoin l r outer => ofCall outer .naturalJoin [.word l, .word r]
  | .orderBy t c => ofCall false .orderBy [.word t, ofColumn c]

def Statement.lexemes : Statement → List Lexeme
  | .define t types => ofKeyword .define :: .word t :: parenthesized (types.map .word)
  | .load t source headed =>
    ofKeyword .load :: (if headed then [ofKeyword .headed] else []) ++
      [.word t, ofKeyword .source, ofText source]
  | .save t target => [ofKeyword .save, .word t, ofText target]
  | .print t => [ofKeyword .print, .word t]
  | .check t c u d =>
    ofKeyword .check :: .word t :: parenthesized [ofColumn c] ++
      ofKeyword .references :: .word u :: parenthesized [ofColumn d]
  | .remove t => [ofKeyword .remove, .word t]
  | .clear => [ofKeyword .clear]
  | .exit => [ofKeyword .exit]
  | .assign t o => .word t :: .symbol .assign :: o.lexemes

def Statement.written (st : Statement) : Text := layout st.lexemes

example : (Statement.check "t" (.index (-1)) "u" (.name "it's")).written =
    "check t(-1) references u('it\\'s')" := by decide +kernel

/-! ### What is read can be written -/

theorem isDigit_of_getLast? {w : Text} {num : Numeral} {c : Text.Point}
    (h : Numeral.ofWord? w = some num) (hc : w.getLast? = some c) : Text.isDigit c = true := by
  cases w with
  | nil => cases h
  | cons d w =>
    rw [Numeral.ofWord?] at h
    split at h
    · obtain ⟨-, hne, hdigits⟩ := Numeral.ofDigits?_eq_some.mp h
      cases w with
      | nil => exact absurd rfl hne
      | cons e w =>
        rw [List.getLast?_cons_cons] at hc
        exact hdigits c (List.mem_of_getLast? hc)
    · obtain ⟨-, -, hdigits⟩ := Numeral.ofDigits?_eq_some.mp h
      exact hdigits c (List.mem_of_getLast? hc)

theorem IsLiteral.isText {l : Lexeme} {v : Text} (h : IsLiteral l v) (hl : IsReadable l) :
    IsText v := by
  cases h with
  | word w => exact Or.inl (isReadable_word.mp hl)
  | quoted v => exact Or.inr (isReadable_quoted.mp hl)
  | integer n w =>
    obtain ⟨-, num, hnum, -⟩ := isReadable_integer.mp hl
    refine Or.inr fun hlast => ?_
    have hdigit := isDigit_of_getLast? hnum hlast
    exact absurd hdigit (by decide)

theorem IsColumn.isWritable {l : Lexeme} {c : ColumnRef} (h : IsColumn l c) (hl : IsReadable l) :
    c.IsWritable := by
  cases h with
  | word w => exact Or.inl (isReadable_word.mp hl)
  | quoted v => exact Or.inr (isReadable_quoted.mp hl)
  | integer n w =>
    exact Numeral.isShort_iff.mp n.property

theorem Tags.isWritable {ls : List Lexeme} {ws : List Text} (h : Tags ls ws)
    (hls : ∀ l ∈ ls, IsReadable l) : ws ≠ [] ∧ ∀ w ∈ ws, IsBareWord w := by
  induction h with
  | last w | lastComma w =>
    have hw := isReadable_word.mp (hls _ List.mem_cons_self)
    exact ⟨List.cons_ne_nil _ _, List.forall_mem_singleton.mpr hw⟩
  | next w rest ih =>
    obtain ⟨hw, hrest⟩ := List.forall_mem_cons.mp hls
    exact ⟨List.cons_ne_nil _ _, List.forall_mem_cons.mpr ⟨isReadable_word.mp hw, (ih hrest).2⟩⟩
  | nextComma w rest ih =>
    obtain ⟨hw, hrest⟩ := List.forall_mem_cons.mp hls
    obtain ⟨-, hrest⟩ := List.forall_mem_cons.mp hrest
    exact ⟨List.cons_ne_nil _ _, List.forall_mem_cons.mpr ⟨isReadable_word.mp hw, (ih hrest).2⟩⟩

theorem Pairs.isWritable {ls : List Lexeme} {ps : List (ColumnRef × ColumnRef)} (h : Pairs ls ps)
    (hls : ∀ l ∈ ls, IsReadable l) : ∀ p ∈ ps, p.1.IsWritable ∧ p.2.IsWritable := by
  induction h with
  | nil => exact fun p hp => absurd hp List.not_mem_nil
  | cons left right rest ih =>
    obtain ⟨hl, hls⟩ := List.forall_mem_cons.mp hls
    obtain ⟨hm, hls⟩ := List.forall_mem_cons.mp hls
    exact List.forall_mem_cons.mpr ⟨⟨left.isWritable hl, right.isWritable hm⟩, ih hls⟩

theorem isWritable_of_forall₂ {ls : List Lexeme} {cs : List ColumnRef}
    (h : List.Forall₂ IsColumn ls cs) (hls : ∀ l ∈ ls, IsReadable l) :
    ∀ c ∈ cs, c.IsWritable := by
  induction h with
  | nil => exact fun c hc => absurd hc List.not_mem_nil
  | cons hc _ ih =>
    obtain ⟨hl, hls⟩ := List.forall_mem_cons.mp hls
    exact List.forall_mem_cons.mpr ⟨hc.isWritable hl, ih hls⟩

theorem Call.isWritable {op : Operator} {outer : Bool} {args : List Lexeme} {o : Operation}
    (h : Call op outer args o) (hargs : ∀ l ∈ args, IsReadable l) : o.IsWritable := by
  cases h with
  | rows t column comparison literal =>
    simp only [List.forall_mem_cons] at hargs
    obtain ⟨ht, hc, -, hv, -⟩ := hargs
    exact ⟨isReadable_word.mp ht, column.isWritable hc, List.mem_map_of_mem comparison,
      literal.isText hv⟩
  | columns t columns =>
    obtain ⟨ht, hcs⟩ := List.forall_mem_cons.mp hargs
    exact ⟨isReadable_word.mp ht, isWritable_of_forall₂ columns hcs⟩
  | product l r | naturalJoin outer l r =>
    simp only [List.forall_mem_cons] at hargs
    obtain ⟨hl, hr, -⟩ := hargs
    exact ⟨isReadable_word.mp hl, isReadable_word.mp hr⟩
  | join outer l r pairs nonempty =>
    simp only [List.forall_mem_cons] at hargs
    obtain ⟨hl, hr, hps⟩ := hargs
    exact ⟨isReadable_word.mp hl, isReadable_word.mp hr, nonempty, pairs.isWritable hps⟩
  | orderBy t column =>
    simp only [List.forall_mem_cons] at hargs
    obtain ⟨ht, hc, -⟩ := hargs
    exact ⟨isReadable_word.mp ht, column.isWritable hc⟩

theorem mem_intersperse {s l : Lexeme} {args : List Lexeme} :
    l ∈ args.intersperse s ↔ l ∈ args ∨ l = s ∧ 1 < args.length := by
  induction args with
  | nil => simp
  | cons m args ih =>
    cases args with
    | nil => simp
    | cons n args =>
      rw [List.intersperse_cons_cons, List.mem_cons, List.mem_cons, ih]
      grind

theorem mem_parenthesized {args : List Lexeme} {l : Lexeme} (h : l ∈ args) :
    l ∈ parenthesized args :=
  List.mem_cons_of_mem _ (List.mem_append_left _ (mem_intersperse.mpr (Or.inl h)))

theorem Invokes.isWritable {ls : List Lexeme} {o : Operation} (h : Invokes ls o)
    (hls : ∀ l ∈ ls, IsReadable l) : o.IsWritable := by
  cases h with
  | inner w name call =>
    obtain ⟨-, hargs⟩ := List.forall_mem_cons.mp hls
    exact call.isWritable fun l hl => hargs l (mem_parenthesized hl)
  | outer k w name call =>
    obtain ⟨-, hls⟩ := List.forall_mem_cons.mp hls
    obtain ⟨-, hargs⟩ := List.forall_mem_cons.mp hls
    exact call.isWritable fun l hl => hargs l (mem_parenthesized hl)

theorem Derives.isWritable {ls : List Lexeme} {st : Statement} (h : Derives ls st)
    (hls : ∀ l ∈ ls, IsReadable l) : st.IsWritable := by
  cases h with
  | define k t tags =>
    simp only [List.forall_mem_cons, List.forall_mem_append] at hls
    obtain ⟨-, ht, -, htags, -⟩ := hls
    exact ⟨isReadable_word.mp ht, tags.isWritable htags⟩
  | load k t f path =>
    simp only [List.forall_mem_cons] at hls
    obtain ⟨-, ht, -, hv, -⟩ := hls
    exact ⟨isReadable_word.mp ht, path.isText hv⟩
  | loadHeaded k h t f path =>
    simp only [List.forall_mem_cons] at hls
    obtain ⟨-, -, ht, -, hv, -⟩ := hls
    exact ⟨isReadable_word.mp ht, path.isText hv⟩
  | save k t path =>
    simp only [List.forall_mem_cons] at hls
    obtain ⟨-, ht, hv, -⟩ := hls
    exact ⟨isReadable_word.mp ht, path.isText hv⟩
  | print k t | remove k t =>
    simp only [List.forall_mem_cons] at hls
    exact isReadable_word.mp hls.2.1
  | check k t r u column refColumn =>
    simp only [List.forall_mem_cons] at hls
    obtain ⟨-, ht, -, hc, -, -, hu, -, hd, -⟩ := hls
    exact ⟨isReadable_word.mp ht, column.isWritable hc, isReadable_word.mp hu,
      refColumn.isWritable hd⟩
  | clear k | exit k => trivial
  | assign t operation =>
    simp only [List.forall_mem_cons] at hls
    obtain ⟨ht, -, ho⟩ := hls
    exact ⟨isReadable_word.mp ht, operation.isWritable ho⟩

/-! ### What can be written is derived -/

theorem isLiteral_ofText (v : Text) : IsLiteral (ofText v) v := by
  unfold ofText
  split
  · exact .word v
  · exact .quoted v

theorem ofColumn_index {n : Int} (h : ColumnRef.IsWritable (.index n)) :
    ofColumn (.index n) = .integer ⟨n, Numeral.isShort_iff.mpr h⟩ (Text.ofInt n) :=
  dif_pos (Numeral.isShort_iff.mpr h)

theorem isColumn_ofColumn {c : ColumnRef} (h : c.IsWritable) : IsColumn (ofColumn c) c := by
  cases c with
  | index n =>
    rw [ofColumn_index h]
    exact .integer _ _
  | name v =>
    show IsColumn (ofText v) _
    unfold ofText
    split
    · exact .word v
    · exact .quoted v

theorem tags_intersperse {ws : List Text} (h : ws ≠ []) :
    Tags ((ws.map Lexeme.word).intersperse (.symbol .comma)) ws := by
  induction ws with
  | nil => exact absurd rfl h
  | cons w ws ih =>
    cases ws with
    | nil => exact .last w
    | cons v ws => exact .nextComma w (ih (List.cons_ne_nil _ _))

theorem pairs_flatMap {ps : List (ColumnRef × ColumnRef)}
    (h : ∀ p ∈ ps, p.1.IsWritable ∧ p.2.IsWritable) :
    Pairs (ps.flatMap fun p => [ofColumn p.1, ofColumn p.2]) ps := by
  induction ps with
  | nil => exact .nil
  | cons p ps ih =>
    obtain ⟨⟨hc, hd⟩, hps⟩ := List.forall_mem_cons.mp h
    exact .cons (isColumn_ofColumn hc) (isColumn_ofColumn hd) (ih hps)

theorem forall₂_map_ofColumn {cs : List ColumnRef} (h : ∀ c ∈ cs, c.IsWritable) :
    List.Forall₂ IsColumn (cs.map ofColumn) cs := by
  rw [List.forall₂_map_left_iff, List.forall₂_same]
  exact fun c hc => isColumn_ofColumn (h c hc)

theorem ofComparator_text {r : Text} (h : r ∈ comparisons.map Symbol.text) :
    ∃ s ∈ comparisons, ofComparator r = .symbol s ∧ s.text = r := by
  obtain ⟨s, hs, rfl⟩ := List.mem_map.mp h
  refine ⟨s, hs, ?_, rfl⟩
  revert s
  decide +kernel

theorem Operator.lower_name (op : Operator) : op.name.lower = op.name := by
  cases op <;> decide +kernel

theorem invokes_ofCall {op : Operator} {outer : Bool} {args : List Lexeme} {o : Operation}
    (h : Call op outer args o) : Invokes (ofCall outer op args) o := by
  cases outer with
  | false => exact .inner op.name op.lower_name h
  | true => exact .outer _ op.name op.lower_name h

theorem Operation.invokes_lexemes {o : Operation} (h : o.IsWritable) : Invokes o.lexemes o := by
  cases o with
  | rows t c r v =>
    obtain ⟨-, hc, hr, -⟩ := h
    obtain ⟨s, hs, hcomparator, rfl⟩ := ofComparator_text hr
    show Invokes (ofCall false .rows [.word t, ofColumn c, ofComparator s.text, ofText v]) _
    rw [hcomparator]
    exact invokes_ofCall (.rows t (isColumn_ofColumn hc) hs (isLiteral_ofText v))
  | columns t cs => exact invokes_ofCall (.columns t (forall₂_map_ofColumn h.2))
  | product l r => exact invokes_ofCall (.product l r)
  | join l r ps outer => exact invokes_ofCall (.join outer l r (pairs_flatMap h.2.2.2) h.2.2.1)
  | naturalJoin l r outer => exact invokes_ofCall (.naturalJoin outer l r)
  | orderBy t c => exact invokes_ofCall (.orderBy t (isColumn_ofColumn h.2))

theorem Statement.derives_lexemes {st : Statement} (h : st.IsWritable) :
    Derives st.lexemes st := by
  cases st with
  | define t types => exact .define _ t (tags_intersperse h.2.1)
  | load t source headed =>
    cases headed with
    | false => exact .load _ t _ (isLiteral_ofText source)
    | true => exact .loadHeaded _ _ t _ (isLiteral_ofText source)
  | save t target => exact .save _ t (isLiteral_ofText target)
  | print t => exact .print _ t
  | check t c u d => exact .check _ t _ u (isColumn_ofColumn h.2.1) (isColumn_ofColumn h.2.2.2)
  | remove t => exact .remove _ t
  | clear => exact .clear _
  | exit => exact .exit _
  | assign t o => exact .assign t (Operation.invokes_lexemes h.2)

/-! ### And its lexemes are readable -/

theorem isReadable_ofKeyword (k : Keyword) : IsReadable (ofKeyword k) := by
  refine .word (w := k.word.lower) ?_ ?_
  · cases k <;> decide +kernel
  · cases k <;> decide +kernel

theorem isReadable_name (op : Operator) : IsReadable (.word op.name) := by
  refine isReadable_word.mpr ⟨?_, ?_, ?_⟩
  all_goals cases op <;> decide +kernel

theorem isReadable_ofText {v : Text} (h : IsText v) : IsReadable (ofText v) := by
  unfold ofText
  split
  · next hlast => exact isReadable_word.mpr (h.resolve_right fun hne => hne hlast)
  · next hlast => exact isReadable_quoted.mpr hlast

theorem isWord_of_isDigit {w : Text} (hne : w ≠ []) (h : ∀ c ∈ w, Text.isDigit c = true) :
    isWord w = true := by
  obtain ⟨c, cs, rfl⟩ := List.exists_cons_of_ne_nil hne
  obtain ⟨hc, hcs⟩ := List.forall_mem_cons.mp h
  have hall := List.all_eq_true.mpr fun d hd => isWordPart_of_isDigit (hcs d hd)
  exact Bool.and_eq_true_iff.mpr ⟨startsWord_of_isDigit hc cs, hall⟩

theorem isWord_ofInt (n : Int) : isWord (Text.ofInt n) = true := by
  have hdigits : ∀ c ∈ Text.ofNat n.natAbs, Text.isDigit c = true :=
    fun _ hc => Text.isDigit_of_mem_ofNat hc
  rcases Int.lt_or_le n 0 with hn | hn
  · rw [Text.ofInt_of_neg hn]
    obtain ⟨c, cs, he⟩ := List.exists_cons_of_ne_nil (Text.ofNat_ne_nil n.natAbs)
    rw [he] at hdigits ⊢
    have hstart : startsWord '-' (c :: cs) = true := by
      simp [startsWord, hdigits c List.mem_cons_self]
    have hall := List.all_eq_true.mpr fun d hd => isWordPart_of_isDigit (hdigits d hd)
    exact Bool.and_eq_true_iff.mpr ⟨hstart, hall⟩
  · rw [Text.ofInt_of_nonneg hn]
    exact isWord_of_isDigit (Text.ofNat_ne_nil _) hdigits

theorem isReadable_ofColumn {c : ColumnRef} (h : c.IsWritable) : IsReadable (ofColumn c) := by
  cases c with
  | index n =>
    rw [ofColumn_index h]
    exact isReadable_integer.mpr
      ⟨isWord_ofInt n, _, Numeral.ofWord?_ofInt n, Numeral.value_ofNat ⟨n, _⟩⟩
  | name v => exact isReadable_ofText h

theorem isReadable_parenthesized {args : List Lexeme} (h : ∀ l ∈ args, IsReadable l) :
    ∀ l ∈ parenthesized args, IsReadable l := by
  have hargs : ∀ l ∈ args.intersperse (.symbol .comma), IsReadable l := by
    intro l hl
    rcases mem_intersperse.mp hl with hl | ⟨rfl, -⟩
    · exact h l hl
    · exact .symbol _
  refine List.forall_mem_cons.mpr ⟨.symbol _, List.forall_mem_append.mpr ⟨hargs, ?_⟩⟩
  exact List.forall_mem_singleton.mpr (.symbol _)

theorem isReadable_ofCall {outer : Bool} {op : Operator} {args : List Lexeme}
    (h : ∀ l ∈ args, IsReadable l) : ∀ l ∈ ofCall outer op args, IsReadable l := by
  refine List.forall_mem_append.mpr ⟨?_, ?_⟩
  · cases outer with
    | false => exact fun l hl => absurd hl List.not_mem_nil
    | true => exact List.forall_mem_singleton.mpr (isReadable_ofKeyword .outer)
  · exact List.forall_mem_cons.mpr ⟨isReadable_name op, isReadable_parenthesized h⟩

theorem Operation.isReadable_lexemes {o : Operation} (h : o.IsWritable) :
    ∀ l ∈ o.lexemes, IsReadable l := by
  cases o with
  | rows t c r v =>
    obtain ⟨ht, hc, hr, hv⟩ := h
    obtain ⟨s, -, hs, -⟩ := ofComparator_text hr
    refine isReadable_ofCall (List.forall_mem_cons.mpr ⟨isReadable_word.mpr ht, ?_⟩)
    refine List.forall_mem_cons.mpr ⟨isReadable_ofColumn hc, ?_⟩
    refine List.forall_mem_cons.mpr ⟨hs ▸ .symbol s, ?_⟩
    exact List.forall_mem_singleton.mpr (isReadable_ofText hv)
  | columns t cs =>
    refine isReadable_ofCall (List.forall_mem_cons.mpr ⟨isReadable_word.mpr h.1, ?_⟩)
    exact List.forall_mem_map.mpr fun c hc => isReadable_ofColumn (h.2 c hc)
  | product l r | naturalJoin l r outer =>
    refine isReadable_ofCall (List.forall_mem_cons.mpr ⟨isReadable_word.mpr h.1, ?_⟩)
    exact List.forall_mem_singleton.mpr (isReadable_word.mpr h.2)
  | join l r ps outer =>
    obtain ⟨hl, hr, -, hps⟩ := h
    refine isReadable_ofCall (List.forall_mem_cons.mpr ⟨isReadable_word.mpr hl, ?_⟩)
    refine List.forall_mem_cons.mpr ⟨isReadable_word.mpr hr, fun m hm => ?_⟩
    obtain ⟨p, hp, hm⟩ := List.mem_flatMap.mp hm
    have hpair : ∀ m ∈ [ofColumn p.1, ofColumn p.2], IsReadable m := by
      simp [isReadable_ofColumn (hps p hp).1, isReadable_ofColumn (hps p hp).2]
    exact hpair m hm
  | orderBy t c =>
    refine isReadable_ofCall (List.forall_mem_cons.mpr ⟨isReadable_word.mpr h.1, ?_⟩)
    exact List.forall_mem_singleton.mpr (isReadable_ofColumn h.2)

theorem Statement.isReadable_lexemes {st : Statement} (h : st.IsWritable) :
    ∀ l ∈ st.lexemes, IsReadable l := by
  have hkey := isReadable_ofKeyword
  cases st with
  | define t types =>
    have ht := isReadable_word.mpr h.1
    have htypes := List.forall_mem_map.mpr fun w hw => isReadable_word.mpr (h.2.2 w hw)
    have hargs := isReadable_parenthesized htypes
    exact List.forall_mem_cons.mpr ⟨hkey _, List.forall_mem_cons.mpr ⟨ht, hargs⟩⟩
  | load t source headed =>
    have ht := isReadable_word.mpr h.1
    have hsource := isReadable_ofText h.2
    cases headed with
    | false => simp [Statement.lexemes, hkey, ht, hsource]
    | true => simp [Statement.lexemes, hkey, ht, hsource]
  | save t target =>
    simp [Statement.lexemes, hkey, isReadable_word.mpr h.1, isReadable_ofText h.2]
  | print t | remove t => simp [Statement.lexemes, hkey, isReadable_word.mpr h]
  | check t c u d =>
    obtain ⟨ht, hc, hu, hd⟩ := h
    have hside : ∀ {k : Keyword} {t : Text} {c : ColumnRef}, IsBareWord t → c.IsWritable →
        ∀ l ∈ ofKeyword k :: .word t :: parenthesized [ofColumn c], IsReadable l := by
      intro k t c ht hc
      have hcolumn := List.forall_mem_singleton.mpr (isReadable_ofColumn hc)
      have hargs := isReadable_parenthesized hcolumn
      exact List.forall_mem_cons.mpr
        ⟨hkey k, List.forall_mem_cons.mpr ⟨isReadable_word.mpr ht, hargs⟩⟩
    exact List.forall_mem_append.mpr ⟨hside ht hc, hside hu hd⟩
  | clear | exit => exact List.forall_mem_singleton.mpr (hkey _)
  | assign t o =>
    have ho := Operation.isReadable_lexemes h.2
    refine List.forall_mem_cons.mpr ⟨isReadable_word.mpr h.1, ?_⟩
    exact List.forall_mem_cons.mpr ⟨.symbol _, ho⟩

/-! ### Reading what is written -/

theorem Statement.statement_written {st : Statement} (h : st.IsWritable) :
    statement st.written = .ok st := by
  obtain ⟨ts, hts, hls⟩ := lexesTo_iff.mp (lexesTo_layout (isReadable_lexemes h))
  exact bind_eq_ok.mpr ⟨ts, hts, Tokens.statement_eq_ok.mpr ⟨_, derives_lexemes h, Or.inl hls⟩⟩

theorem isWritable_of_statement {text : Text} {st : Statement} (h : statement text = .ok st) :
    st.IsWritable := by
  obtain ⟨ts, hts, h⟩ := bind_eq_ok.mp h
  obtain ⟨ls, hls, hlexemes⟩ := Tokens.statement_eq_ok.mp h
  have hreadable := (lexesTo_iff.mpr ⟨ts, hts, rfl⟩).isReadable
  refine hls.isWritable fun l hl => hreadable l ?_
  rcases hlexemes with h | h
  · rwa [h]
  · rw [h]
    exact List.mem_append_left _ hl

/-- The statements of texts are those that can be written, and each of them is the statement of the
text that writes it. -/
theorem isWritable_iff (st : Statement) :
    (st.IsWritable ↔ ∃ text, statement text = .ok st) ∧
      (st.IsWritable ↔ statement st.written = .ok st) :=
  ⟨⟨fun h => ⟨_, st.statement_written h⟩, fun ⟨_, h⟩ => isWritable_of_statement h⟩,
    fun h => st.statement_written h, isWritable_of_statement⟩

end Command

end TableAlgebra
