import Mathlib.Data.List.Forall2
import TableAlgebra.Command.Parser

/-!
# The grammar of commands

The lexemes of a command make up a statement by a grammar that knows of no places, no faults and no
order of reading.

* `IsColumn`, `IsLiteral`, `Tags`, `Pairs`   the phrases that statements are made of;
* `Call`, `Invokes`                          an operation with its arguments;
* `Derives ls st`                            the lexemes `ls` spell the statement `st`.
-/

namespace TableAlgebra.Command

/-! ### Phrases -/

/-- A column: an integer counts, any other spelling is a header. -/
inductive IsColumn : Lexeme → ColumnRef → Prop
  | integer (n : Text.Numeral.Value) (w : Text) : IsColumn (.integer n w) (.index n.val)
  | word (w : Text) : IsColumn (.word w) (.name w)
  | quoted (v : Text) : IsColumn (.quoted v) (.name v)

/-- A file name or a value: an integer is the text that spells it. -/
inductive IsLiteral : Lexeme → Text → Prop
  | integer (n : Text.Numeral.Value) (w : Text) : IsLiteral (.integer n w) w
  | word (w : Text) : IsLiteral (.word w) w
  | quoted (v : Text) : IsLiteral (.quoted v) v

/-- One type tag or more; a comma may follow each. -/
inductive Tags : List Lexeme → List Text → Prop
  | last (w : Text) : Tags [.word w] [w]
  | lastComma (w : Text) : Tags [.word w, .symbol .comma] [w]
  | next (w : Text) {ls : List Lexeme} {ws : List Text} (rest : Tags ls ws) :
      Tags (.word w :: ls) (w :: ws)
  | nextComma (w : Text) {ls : List Lexeme} {ws : List Text} (rest : Tags ls ws) :
      Tags (.word w :: .symbol .comma :: ls) (w :: ws)

/-- Columns two by two. -/
inductive Pairs : List Lexeme → List (ColumnRef × ColumnRef) → Prop
  | nil : Pairs [] []
  | cons {l m : Lexeme} {c d : ColumnRef} {ls : List Lexeme} {ps : List (ColumnRef × ColumnRef)}
      (left : IsColumn l c) (right : IsColumn m d) (rest : Pairs ls ps) :
      Pairs (l :: m :: ls) ((c, d) :: ps)

def comparisons : List Symbol :=
  [.lessThan, .lessEquals, .equals, .greaterEquals, .greaterThan, .assign]

/-- The arguments of an operation, in its outer form or not. -/
inductive Call : Operator → Bool → List Lexeme → Operation → Prop
  | rows (t : Text) {l m : Lexeme} {c : ColumnRef} {s : Symbol} {v : Text} (column : IsColumn l c)
      (comparison : s ∈ comparisons) (literal : IsLiteral m v) :
      Call .rows false [.word t, l, .symbol s, m] (.rows t c s.text v)
  | columns (t : Text) {ls : List Lexeme} {cs : List ColumnRef}
      (columns : List.Forall₂ IsColumn ls cs) :
      Call .columns false (.word t :: ls) (.columns t cs)
  | product (l r : Text) : Call .product false [.word l, .word r] (.product l r)
  | join (outer : Bool) (l r : Text) {ls : List Lexeme} {ps : List (ColumnRef × ColumnRef)}
      (pairs : Pairs ls ps) (nonempty : ps ≠ []) :
      Call .join outer (.word l :: .word r :: ls) (.join l r ps outer)
  | naturalJoin (outer : Bool) (l r : Text) :
      Call .naturalJoin outer [.word l, .word r] (.naturalJoin l r outer)
  | orderBy (t : Text) {l : Lexeme} {c : ColumnRef} (column : IsColumn l c) :
      Call .orderBy false [.word t, l] (.orderBy t c)

def parenthesized (args : List Lexeme) : List Lexeme :=
  .symbol .lparen :: (args.intersperse (.symbol .comma) ++ [.symbol .rparen])

/-- An operation by its name, in any case, with its arguments; `outer` may go before it. -/
inductive Invokes : List Lexeme → Operation → Prop
  | inner (w : Text) {op : Operator} {args : List Lexeme} {o : Operation}
      (name : w.lower = op.name) (call : Call op false args o) :
      Invokes (.word w :: parenthesized args) o
  | outer (k w : Text) {op : Operator} {args : List Lexeme} {o : Operation}
      (name : w.lower = op.name) (call : Call op true args o) :
      Invokes (.keyword .outer k :: .word w :: parenthesized args) o

/-- The lexemes spell the statement. Keywords may be spelled in any way. -/
inductive Derives : List Lexeme → Statement → Prop
  | define (k t : Text) {ls : List Lexeme} {types : List Text} (tags : Tags ls types) :
      Derives (.keyword .define k :: .word t :: .symbol .lparen :: (ls ++ [.symbol .rparen]))
        (.define t types)
  | load (k t f : Text) {l : Lexeme} {v : Text} (path : IsLiteral l v) :
      Derives [.keyword .load k, .word t, .keyword .source f, l] (.load t v false)
  | loadHeaded (k h t f : Text) {l : Lexeme} {v : Text} (path : IsLiteral l v) :
      Derives [.keyword .load k, .keyword .headed h, .word t, .keyword .source f, l]
        (.load t v true)
  | save (k t : Text) {l : Lexeme} {v : Text} (path : IsLiteral l v) :
      Derives [.keyword .save k, .word t, l] (.save t v)
  | print (k t : Text) : Derives [.keyword .print k, .word t] (.print t)
  | check (k t r u : Text) {l m : Lexeme} {c d : ColumnRef} (column : IsColumn l c)
      (refColumn : IsColumn m d) :
      Derives [.keyword .check k, .word t, .symbol .lparen, l, .symbol .rparen,
        .keyword .references r, .word u, .symbol .lparen, m, .symbol .rparen] (.check t c u d)
  | remove (k t : Text) : Derives [.keyword .remove k, .word t] (.remove t)
  | clear (k : Text) : Derives [.keyword .clear k] .clear
  | exit (k : Text) : Derives [.keyword .exit k] .exit
  | assign (t : Text) {ls : List Lexeme} {o : Operation} (operation : Invokes ls o) :
      Derives (.word t :: .symbol .assign :: ls) (.assign t o)

/-! ### What a lexeme can stand for -/

theorem Lexeme.column?_eq_some {l : Lexeme} {c : ColumnRef} :
    l.column? = some c ↔ IsColumn l c := by
  constructor
  · intro h
    cases l <;> cases h <;> constructor
  · intro h
    cases h <;> rfl

theorem Lexeme.literal?_eq_some {l : Lexeme} {v : Text} :
    l.literal? = some v ↔ IsLiteral l v := by
  constructor
  · intro h
    cases l <;> cases h <;> constructor
  · intro h
    cases h <;> rfl

theorem Lexeme.table?_eq_some {l : Lexeme} {t : Text} : l.table? = some t ↔ l = .word t := by
  cases l <;> simp [table?]

theorem Symbol.isComparison_iff {s : Symbol} : s.isComparison = true ↔ s ∈ comparisons := by
  cases s <;> decide

theorem Lexeme.comparison?_eq_some {l : Lexeme} {v : Text} :
    l.comparison? = some v ↔ ∃ s ∈ comparisons, l = .symbol s ∧ s.text = v := by
  cases l with
  | symbol s => simp [comparison?, Symbol.isComparison_iff]
  | _ => simp [comparison?]

/-! ### Phrases and their lexemes -/

theorem Tags.exists_word {ls : List Lexeme} {ws : List Text} (h : Tags ls ws) :
    ∃ w rest, ls = .word w :: rest := by
  cases h <;> exact ⟨_, _, rfl⟩

theorem Pairs.forall₂ {ls : List Lexeme} {ps : List (ColumnRef × ColumnRef)} (h : Pairs ls ps) :
    ls.length % 2 = 0 ∧ ∃ cs, List.Forall₂ IsColumn ls cs ∧ pairUp cs = ps := by
  induction h with
  | nil => exact ⟨rfl, [], .nil, rfl⟩
  | cons left right rest ih =>
    obtain ⟨heven, cs, hcs, rfl⟩ := ih
    refine ⟨?_, _, .cons left (.cons right hcs), rfl⟩
    simp only [List.length_cons]
    omega

theorem pairs_of_forall₂ {ls : List Lexeme} {cs : List ColumnRef}
    (h : List.Forall₂ IsColumn ls cs) (heven : ls.length % 2 = 0) : Pairs ls (pairUp cs) := by
  induction hn : ls.length using Nat.strongRecOn generalizing ls cs with
  | ind n ih =>
    cases h with
    | nil => exact .nil
    | cons left h =>
      cases h with
      | nil => cases heven
      | cons right h =>
        simp only [List.length_cons] at heven hn
        exact .cons left right (ih _ (by omega) h (by omega) rfl)

theorem IsColumn.isArgument {l : Lexeme} {c : ColumnRef} (h : IsColumn l c) :
    l.isArgument = true := by
  cases h <;> rfl

theorem IsLiteral.isArgument {l : Lexeme} {v : Text} (h : IsLiteral l v) :
    l.isArgument = true := by
  cases h <;> rfl

theorem isArgument_of_forall₂ {ls : List Lexeme} {cs : List ColumnRef}
    (h : List.Forall₂ IsColumn ls cs) : ∀ l ∈ ls, l.isArgument = true := by
  induction h with
  | nil => exact fun l hl => absurd hl List.not_mem_nil
  | cons hc _ ih => exact List.forall_mem_cons.mpr ⟨hc.isArgument, ih⟩

theorem Call.isArgument {op : Operator} {outer : Bool} {args : List Lexeme} {o : Operation}
    (h : Call op outer args o) : ∀ l ∈ args, l.isArgument = true := by
  have hword : ∀ w : Text, (Lexeme.word w).isArgument = true := fun _ => rfl
  cases h with
  | @rows t _ _ _ s _ column comparison literal =>
    have hs : (Lexeme.symbol s).isArgument = true := Symbol.isComparison_iff.mpr comparison
    simp only [List.forall_mem_cons, hword, column.isArgument, hs, literal.isArgument, true_and]
    exact fun l hl => absurd hl List.not_mem_nil
  | columns t columns => exact List.forall_mem_cons.mpr ⟨rfl, isArgument_of_forall₂ columns⟩
  | product | naturalJoin => simp [hword]
  | join outer l r pairs =>
    obtain ⟨-, cs, hcs, -⟩ := pairs.forall₂
    have hargs := isArgument_of_forall₂ hcs
    exact List.forall_mem_cons.mpr ⟨rfl, List.forall_mem_cons.mpr ⟨rfl, hargs⟩⟩
  | orderBy t column =>
    exact List.forall_mem_cons.mpr ⟨rfl, List.forall_mem_singleton.mpr column.isArgument⟩

theorem Call.hasOuter {op : Operator} {args : List Lexeme} {o : Operation}
    (h : Call op true args o) : op.hasOuter = true := by
  cases h <;> rfl

theorem Operator.ofWord?_eq_some {w : Text} {op : Operator} :
    ofWord? w = some op ↔ w.lower = op.name := by
  constructor
  · intro h
    rw [ofWord?] at h
    have hname := List.find?_some h
    exact (beq_iff_eq.mp hname).symm
  · intro h
    rw [ofWord?, h]
    cases op <;> decide +kernel

end TableAlgebra.Command
