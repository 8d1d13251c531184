import TableAlgebra.Proofs.Command.Reading

/-!
# Tokens that are spelled otherwise

The parser does not look at the spelling of a keyword, nor at the places of the tokens, save to tell
where it stopped. So it answers alike for tokens that differ in nothing else: with the same
statement, or with the same words about a fault.

* `Lexeme.Alike`, `Tokens.Alike`   tokens that differ in the spelling of keywords and in places;
* `Answers R x y`                  both succeed, with results that are related, or both fail with
                                   the same words;
* `Answers.bind`                   one reader after another;
* `answers_statement`              the parser.
-/

namespace TableAlgebra.Command

/-! ### Lexemes -/

/-- The lexemes are the same, but for the spelling of a keyword. -/
inductive Lexeme.Alike : Lexeme → Lexeme → Prop
  | same (l : Lexeme) : Alike l l
  | keyword {k : Keyword} {v w : Text} (upper : v.upper = w.upper) :
      Alike (.keyword k v) (.keyword k w)

namespace Lexeme.Alike

variable {l m : Lexeme} (h : l.Alike m)
include h

theorem className_eq : l.className = m.className := by cases h <;> rfl

theorem value_eq : l.value = m.value := by
  cases h with
  | same => rfl
  | keyword upper => exact upper

theorem keyword_or_eq : (∃ k v w, l = .keyword k v ∧ m = .keyword k w) ∨
    l = m ∧ ∀ k w, l ≠ .keyword k w := by
  cases h with
  | keyword => exact Or.inl ⟨_, _, _, rfl, rfl⟩
  | same =>
    cases l with
    | keyword k w => exact Or.inl ⟨k, w, w, rfl, rfl⟩
    | symbol | integer | quoted | word => exact Or.inr ⟨rfl, fun _ _ e => nomatch e⟩

theorem eq_iff {n : Lexeme} (hn : ∀ k w, n ≠ .keyword k w) : l = n ↔ m = n := by
  cases h with
  | same => exact Iff.rfl
  | keyword => exact iff_of_false (fun e => hn _ _ e.symm) (fun e => hn _ _ e.symm)

theorem eq_symbol_iff (s : Symbol) : l = .symbol s ↔ m = .symbol s := h.eq_iff fun _ _ e => nomatch e

theorem eq_word_iff (w : Text) : l = .word w ↔ m = .word w := h.eq_iff fun _ _ e => nomatch e

theorem isArgument_eq : l.isArgument = m.isArgument := by cases h <;> rfl

theorem table?_eq : l.table? = m.table? := by cases h <;> rfl

theorem column?_eq : l.column? = m.column? := by cases h <;> rfl

theorem literal?_eq : l.literal? = m.literal? := by cases h <;> rfl

theorem comparison?_eq : l.comparison? = m.comparison? := by cases h <;> rfl

end Lexeme.Alike

/-! ### Answers -/

/-- Both succeed, with related results, or both have a fault to tell, in the same words. -/
inductive Answers {α β : Type} (R : α → β → Prop) : Except Error α → Except Error β → Prop
  | ok {a : α} {b : β} (related : R a b) : Answers R (.ok a) (.ok b)
  | fault {f g : Fault} {p q : Place} (words : f.text = g.text) :
      Answers R (.error (.command f p)) (.error (.command g q))

section
variable {α β γ δ : Type} {R : α → β → Prop} {S : γ → δ → Prop}

theorem Answers.bind {x : Except Error α} {y : Except Error β} {f : α → Except Error γ}
    {g : β → Except Error δ} (h : Answers R x y) (hf : ∀ a b, R a b → Answers S (f a) (g b)) :
    Answers S (x >>= f) (y >>= g) := by
  cases h with
  | ok related => exact hf _ _ related
  | fault words => exact .fault words

theorem Answers.bindEq {x y : Except Error α} {f : α → Except Error γ} {g : α → Except Error δ}
    (h : Answers Eq x y) (hf : ∀ a, Answers S (f a) (g a)) : Answers S (x >>= f) (y >>= g) :=
  h.bind fun a _ hab => hab ▸ hf a

theorem Answers.map {x : Except Error α} {y : Except Error β} {f : α → γ} {g : β → δ}
    (h : Answers R x y) (hf : ∀ a b, R a b → S (f a) (g b)) : Answers S (x.map f) (y.map g) := by
  cases h with
  | ok related => exact .ok (hf _ _ related)
  | fault words => exact .fault words

end

/-! ### The front of the tokens -/

/-- The tokens are alike, one by one. -/
def AllAlike : List Token → List Token → Prop :=
  List.Forall₂ fun t u => t.lexeme.Alike u.lexeme

namespace Tokens

def Alike (ts us : Tokens) : Prop := AllAlike ts.list us.list

/-- The same is taken, and what is left is alike. -/
def TakesSame {α : Type} (x y : α × Tokens) : Prop := x.1 = y.1 ∧ x.2.Alike y.2

theorem bindSame {α γ δ : Type} {S : γ → δ → Prop} {x y : Except Error (α × Tokens)}
    {f : α × Tokens → Except Error γ} {g : α × Tokens → Except Error δ}
    (h : Answers TakesSame x y)
    (hf : ∀ a ts us, ts.Alike us → Answers S (f (a, ts)) (g (a, us))) :
    Answers S (x >>= f) (y >>= g) := by
  refine h.bind ?_
  rintro ⟨a, ts⟩ ⟨_, us⟩ ⟨rfl, hts⟩
  exact hf a ts us hts

/-- Takes the next lexeme in some role. -/
def take {α : Type} (ts : Tokens) (role : Lexeme → Option α) (what : Wanted) :
    Except Error (α × Tokens) :=
  match ts.next?.bind role with
  | some a => .ok (a, ts.drop)
  | none => ts.refuse (.wanted what)

theorem word_eq (ts : Tokens) (what : Wanted) : ts.word what = ts.take Lexeme.table? what := by
  unfold word take
  cases ts.next? with
  | none => rfl
  | some l => cases l <;> rfl

theorem path_eq (ts : Tokens) : ts.path = ts.take Lexeme.literal? .fileName := by
  unfold path take
  cases ts.next?.bind Lexeme.literal? <;> rfl

theorem column_eq (ts : Tokens) : ts.column = ts.take Lexeme.column? .column := by
  unfold column take
  cases ts.next?.bind Lexeme.column? <;> rfl

section
variable {ts us : Tokens} (h : ts.Alike us)
include h

theorem Alike.drop : ts.drop.Alike us.drop := by
  obtain ⟨list, stop⟩ := ts
  obtain ⟨list', stop'⟩ := us
  cases h with
  | nil => exact .nil
  | cons _ others => exact others

theorem Alike.next? : (ts.next? = none ∧ us.next? = none) ∨
    ∃ l m, ts.next? = some l ∧ us.next? = some m ∧ l.Alike m := by
  obtain ⟨list, stop⟩ := ts
  obtain ⟨list', stop'⟩ := us
  cases h with
  | nil => exact Or.inl ⟨rfl, rfl⟩
  | cons first _ => exact Or.inr ⟨_, _, rfl, rfl, first⟩

theorem Alike.isEmpty_list : ts.list.isEmpty = us.list.isEmpty := by
  obtain ⟨list, stop⟩ := ts
  obtain ⟨list', stop'⟩ := us
  cases h <;> rfl

theorem Alike.next?_eq_symbol (s : Symbol) :
    ts.next? = some (.symbol s) ↔ us.next? = some (.symbol s) := by
  rcases h.next? with ⟨ht, hu⟩ | ⟨l, m, ht, hu, hlm⟩
  · rw [ht, hu]
  · rw [ht, hu, Option.some.injEq, Option.some.injEq]
    exact hlm.eq_symbol_iff s

theorem Alike.startsWith (k : Keyword) : ts.startsWith k = us.startsWith k := by
  unfold Tokens.startsWith
  rcases h.next? with ⟨ht, hu⟩ | ⟨l, m, ht, hu, hlm⟩
  · rw [ht, hu]
  · rw [ht, hu]
    cases hlm <;> rfl

theorem Alike.role {α : Type} {role : Lexeme → Option α}
    (hrole : ∀ {l m : Lexeme}, l.Alike m → role l = role m) :
    ts.next?.bind role = us.next?.bind role := by
  rcases h.next? with ⟨ht, hu⟩ | ⟨l, m, ht, hu, hlm⟩
  · rw [ht, hu]
  · rw [ht, hu]
    exact hrole hlm

theorem Alike.unexpected : (Fault.unexpected ts.next?).text = (Fault.unexpected us.next?).text := by
  rcases h.next? with ⟨ht, hu⟩ | ⟨l, m, ht, hu, hlm⟩
  · rw [ht, hu]
  · rw [ht, hu]
    exact congrArg (("Unexpected token: " : Text) ++ ·) hlm.value_eq

/-! ### Single lexemes -/

theorem answers_symbol (s : Symbol) : Answers Alike (ts.symbol s) (us.symbol s) := by
  unfold symbol
  simp only [h.next?_eq_symbol s]
  split
  · exact .ok h.drop
  · exact .fault rfl

theorem answers_keyword (k : Keyword) : Answers Alike (ts.keyword k) (us.keyword k) := by
  unfold keyword
  rw [h.startsWith k]
  split
  · exact .ok h.drop
  · exact .fault rfl

theorem Alike.keyword? (k : Keyword) : ∃ found ts' us', ts.keyword? k = (found, ts') ∧
    us.keyword? k = (found, us') ∧ ts'.Alike us' := by
  unfold Tokens.keyword?
  rw [h.startsWith k]
  split
  · exact ⟨true, _, _, rfl, rfl, h.drop⟩
  · exact ⟨false, _, _, rfl, rfl, h⟩

theorem answers_take {α : Type} {role : Lexeme → Option α}
    (hrole : ∀ {l m : Lexeme}, l.Alike m → role l = role m) (what : Wanted) :
    Answers TakesSame (ts.take role what) (us.take role what) := by
  unfold take
  rw [h.role hrole]
  cases us.next?.bind role with
  | some a => exact .ok ⟨rfl, h.drop⟩
  | none => exact .fault rfl

theorem answers_word (what : Wanted) : Answers TakesSame (ts.word what) (us.word what) := by
  rw [word_eq, word_eq]
  exact answers_take h Lexeme.Alike.table?_eq what

theorem answers_path : Answers TakesSame ts.path us.path := by
  rw [path_eq, path_eq]
  exact answers_take h Lexeme.Alike.literal?_eq .fileName

theorem answers_column : Answers TakesSame ts.column us.column := by
  rw [column_eq, column_eq]
  exact answers_take h Lexeme.Alike.column?_eq .column

theorem answers_tableColumn : Answers TakesSame ts.tableColumn us.tableColumn := by
  unfold tableColumn
  refine Tokens.bindSame (answers_word h .tableName) fun table ts₁ us₁ h₁ => ?_
  refine (answers_symbol h₁ .lparen).bind fun ts₂ us₂ h₂ => ?_
  refine Tokens.bindSame (answers_column h₂) fun column ts₃ us₃ h₃ => ?_
  exact (answers_symbol h₃ .rparen).bind fun _ _ h₄ => .ok ⟨rfl, h₄⟩

end

end Tokens

open Tokens (TakesSame)

/-! ### Type tags and arguments -/

theorem answers_typeTags {list list' : List Token} (h : AllAlike list list') (stop stop' : Place) :
    Answers TakesSame (typeTags stop list) (typeTags stop' list') := by
  fun_induction typeTags stop list generalizing list' with
  | case1 =>
    cases h
    exact .fault rfl
  | case2 p ts =>
    obtain _ | @⟨_, ⟨m, q⟩, _, us, first, others⟩ := h
    cases first
    exact .ok ⟨rfl, others⟩
  | case3 w p q ts ih =>
    obtain _ | @⟨_, ⟨m, p'⟩, _, us, first, others⟩ := h
    obtain _ | @⟨_, ⟨n, q'⟩, _, us, second, others⟩ := others
    cases first
    cases second
    exact (ih others).map fun _ _ hr => ⟨congrArg (w :: ·) hr.1, hr.2⟩
  | case4 w p ts hcomma ih =>
    obtain _ | @⟨_, ⟨m, p'⟩, _, us, first, others⟩ := h
    cases first
    have hcomma' : ∀ q vs, us = ⟨.symbol .comma, q⟩ :: vs → False := by
      rintro q vs rfl
      obtain _ | @⟨⟨n, q'⟩, _, ts', _, second, _⟩ := others
      have hn : n = .symbol .comma := (second.eq_symbol_iff .comma).mpr rfl
      exact hcomma q' ts' (by rw [hn])
    rw [typeTags]
    · exact (ih others).map fun _ _ hr => ⟨congrArg (w :: ·) hr.1, hr.2⟩
    · exact hcomma'
  | case5 l p ts hparen hpair hword =>
    obtain _ | @⟨_, ⟨m, q⟩, _, us, first, others⟩ := h
    have hword' : ∀ w, m = .word w → False := fun w hm => hword w ((first.eq_word_iff w).mpr hm)
    rw [typeTags]
    · exact .fault rfl
    · exact fun hm => hparen ((first.eq_symbol_iff .rparen).mpr hm)
    · exact fun w _ _ _ hm => hword' w hm
    · exact hword'

theorem answers_argumentList {list list' : List Token} (h : AllAlike list list')
    (stop stop' : Place) :
    Answers (fun x y => AllAlike x.1 y.1 ∧ x.2.Alike y.2) (argumentList stop list)
      (argumentList stop' list') := by
  fun_induction argumentList stop list generalizing list' with
  | case1 =>
    cases h
    exact .fault rfl
  | case2 t ht =>
    obtain _ | @⟨_, t', _, _, first, _ | _⟩ := h
    rw [argumentList, if_pos (first.isArgument_eq ▸ ht)]
    exact .ok ⟨.cons first .nil, .nil⟩
  | case3 t ht =>
    obtain _ | @⟨_, t', _, _, first, _ | _⟩ := h
    rw [argumentList, if_neg (first.isArgument_eq ▸ ht)]
    exact .fault (congrArg (("Unexpected token: " : Text) ++ ·) first.value_eq)
  | case4 t u ts ht hu ih =>
    obtain _ | @⟨_, t', _, _, first, _ | @⟨_, u', _, us, second, others⟩⟩ := h
    rw [argumentList, if_pos (first.isArgument_eq ▸ ht), if_pos ((second.eq_symbol_iff _).mp hu)]
    exact (ih others).map fun _ _ hr => ⟨.cons first hr.1, hr.2⟩
  | case5 t u ts ht hu =>
    obtain _ | @⟨_, t', _, _, first, _ | @⟨_, u', _, us, second, others⟩⟩ := h
    rw [argumentList, if_pos (first.isArgument_eq ▸ ht),
      if_neg (mt (second.eq_symbol_iff _).mpr hu)]
    exact .ok ⟨.cons first .nil, .cons second others⟩
  | case6 t u ts ht =>
    obtain _ | @⟨_, t', _, _, first, _ | @⟨_, u', _, us, second, others⟩⟩ := h
    rw [argumentList, if_neg (first.isArgument_eq ▸ ht)]
    exact .fault (congrArg (("Unexpected token: " : Text) ++ ·) first.value_eq)

theorem answers_arguments {ts us : Tokens} (h : ts.Alike us) :
    Answers (fun x y => AllAlike x.1 y.1 ∧ x.2.Alike y.2) (arguments ts) (arguments us) := by
  unfold arguments
  simp only [h.next?_eq_symbol]
  split
  · exact .ok ⟨.nil, h⟩
  · exact answers_argumentList h ts.stop us.stop

/-! ### Operations -/

section
variable {t u : Token} (h : t.lexeme.Alike u.lexeme)
include h

theorem Token.answers_want {α : Type} {role : Lexeme → Option α}
    (hrole : ∀ {l m : Lexeme}, l.Alike m → role l = role m) (what : Wanted) :
    Answers Eq (t.want role what) (u.want role what) := by
  unfold want
  rw [hrole h]
  cases role u.lexeme with
  | some a => exact .ok rfl
  | none => exact .fault rfl

theorem Token.answers_table : Answers Eq t.table u.table := answers_want h Lexeme.Alike.table?_eq _

theorem Token.answers_column : Answers Eq t.column u.column :=
  answers_want h Lexeme.Alike.column?_eq _

theorem Token.answers_literal : Answers Eq t.literal u.literal :=
  answers_want h Lexeme.Alike.literal?_eq _

theorem Token.answers_comparison : Answers Eq t.comparison u.comparison :=
  answers_want h Lexeme.Alike.comparison?_eq _

end

theorem answers_mapM_column {ts us : List Token} (h : AllAlike ts us) :
    Answers Eq (ts.mapM Token.column) (us.mapM Token.column) := by
  induction h with
  | nil => exact .ok rfl
  | cons first _ ih =>
    rw [List.mapM_cons, List.mapM_cons]
    refine (Token.answers_column first).bindEq fun c => ?_
    refine ih.bindEq fun cs => ?_
    exact .ok rfl

/-- The fault of a wrong number of arguments does not depend on them. -/
theorem Operator.answers_apply (op : Operator) (outer : Bool) (p q : Place) {ts us : List Token}
    (h : AllAlike ts us) : Answers Eq (op.apply outer p ts) (op.apply outer q us) := by
  have harity : Answers (α := Operation) Eq (.error (.command (.arity op) p))
      (.error (.command (.arity op) q)) := .fault rfl
  cases op with
  | rows =>
    rcases h with _ | ⟨ht, _ | ⟨hc, _ | ⟨hr, _ | ⟨hv, _ | _⟩⟩⟩⟩
    · exact harity
    · exact harity
    · exact harity
    · exact harity
    · refine (Token.answers_comparison hr).bindEq fun comparator => ?_
      refine (Token.answers_literal hv).bindEq fun literal => ?_
      refine (Token.answers_table ht).bindEq fun table => ?_
      refine (Token.answers_column hc).bindEq fun column => ?_
      exact .ok rfl
    · exact harity
  | columns =>
    rcases h with _ | ⟨ht, hcs⟩
    · exact harity
    · refine (Token.answers_table ht).bindEq fun table => ?_
      refine (answers_mapM_column hcs).bindEq fun columns => ?_
      exact .ok rfl
  | product =>
    rcases h with _ | ⟨hl, _ | ⟨hr, _ | _⟩⟩
    · exact harity
    · exact harity
    · refine (Token.answers_table hl).bindEq fun left => ?_
      refine (Token.answers_table hr).bindEq fun right => ?_
      exact .ok rfl
    · exact harity
  | join =>
    rcases h with _ | ⟨hl, _ | ⟨hr, _ | ⟨hc, _ | ⟨hd, hcs⟩⟩⟩⟩
    · exact harity
    · exact harity
    · exact harity
    · exact harity
    · unfold Operator.apply
      dsimp only
      rw [hcs.length_eq]
      split
      · refine (answers_mapM_column (.cons hc (.cons hd hcs))).bindEq fun refs => ?_
        refine (Token.answers_table hl).bindEq fun left => ?_
        refine (Token.answers_table hr).bindEq fun right => ?_
        exact .ok rfl
      · exact harity
  | naturalJoin =>
    rcases h with _ | ⟨hl, _ | ⟨hr, _ | _⟩⟩
    · exact harity
    · exact harity
    · refine (Token.answers_table hl).bindEq fun left => ?_
      refine (Token.answers_table hr).bindEq fun right => ?_
      exact .ok rfl
    · exact harity
  | orderBy =>
    rcases h with _ | ⟨ht, _ | ⟨hc, _ | _⟩⟩
    · exact harity
    · exact harity
    · refine (Token.answers_table ht).bindEq fun table => ?_
      refine (Token.answers_column hc).bindEq fun column => ?_
      exact .ok rfl
    · exact harity

section
variable {ts us : Tokens} (h : ts.Alike us)
include h

theorem answers_operation : Answers TakesSame (operation ts) (operation us) := by
  unfold operation
  obtain ⟨outer, ts₁, us₁, hts, hus, h₁⟩ := h.keyword? .outer
  rw [hts, hus]
  refine Tokens.bindSame (Tokens.answers_word h₁ .operation) fun name ts₂ us₂ h₂ => ?_
  dsimp only
  cases Operator.ofWord? name with
  | none => exact .fault rfl
  | some op =>
    dsimp only
    split
    · exact .fault rfl
    · refine (Tokens.answers_symbol h₂ .lparen).bind fun ts₃ us₃ h₃ => ?_
      refine (answers_arguments h₃).bind ?_
      rintro ⟨args, ts₄⟩ ⟨args', us₄⟩ ⟨hargs, h₄⟩
      refine (Tokens.answers_symbol h₄ .rparen).bind fun ts₅ us₅ h₅ => ?_
      refine (op.answers_apply outer _ _ hargs).bindEq fun o => ?_
      exact .ok ⟨rfl, h₅⟩

/-! ### Statements -/

/-- The keyword starts no statement, or the statements that it starts are read alike. -/
theorem answers_keywordStatement (k : Keyword) :
    (keywordStatement k ts = none ∧ keywordStatement k us = none) ∨
      ∃ x y, keywordStatement k ts = some x ∧ keywordStatement k us = some y ∧
        Answers TakesSame x y := by
  cases k with
  | define =>
    refine Or.inr ⟨_, _, rfl, rfl, ?_⟩
    refine Tokens.bindSame (Tokens.answers_word h .tableName) fun table ts₁ us₁ h₁ => ?_
    refine (Tokens.answers_symbol h₁ .lparen).bind fun ts₂ us₂ h₂ => ?_
    refine Tokens.bindSame (answers_typeTags h₂ ts₂.stop us₂.stop) fun types ts₃ us₃ h₃ => ?_
    dsimp only
    split
    · exact .fault rfl
    · exact .ok ⟨rfl, h₃⟩
  | load =>
    obtain ⟨headed, ts₁, us₁, hts, hus, h₁⟩ := h.keyword? .headed
    unfold keywordStatement
    rw [hts, hus]
    refine Or.inr ⟨_, _, rfl, rfl, ?_⟩
    refine Tokens.bindSame (Tokens.answers_word h₁ .tableName) fun table ts₂ us₂ h₂ => ?_
    refine (Tokens.answers_keyword h₂ .source).bind fun ts₃ us₃ h₃ => ?_
    refine Tokens.bindSame (Tokens.answers_path h₃) fun source ts₄ us₄ h₄ => ?_
    exact .ok ⟨rfl, h₄⟩
  | save =>
    refine Or.inr ⟨_, _, rfl, rfl, ?_⟩
    refine Tokens.bindSame (Tokens.answers_word h .tableName) fun table ts₁ us₁ h₁ => ?_
    refine Tokens.bindSame (Tokens.answers_path h₁) fun target ts₂ us₂ h₂ => ?_
    exact .ok ⟨rfl, h₂⟩
  | print =>
    refine Or.inr ⟨_, _, rfl, rfl, ?_⟩
    refine Tokens.bindSame (Tokens.answers_word h .tableName) fun table ts₁ us₁ h₁ => ?_
    exact .ok ⟨rfl, h₁⟩
  | check =>
    refine Or.inr ⟨_, _, rfl, rfl, ?_⟩
    refine Tokens.bindSame (Tokens.answers_tableColumn h) fun ⟨table, column⟩ ts₁ us₁ h₁ => ?_
    refine (Tokens.answers_keyword h₁ .references).bind fun ts₂ us₂ h₂ => ?_
    refine Tokens.bindSame (Tokens.answers_tableColumn h₂) fun ⟨refTable, refColumn⟩ ts₃ us₃ h₃ => ?_
    exact .ok ⟨rfl, h₃⟩
  | remove =>
    refine Or.inr ⟨_, _, rfl, rfl, ?_⟩
    refine Tokens.bindSame (Tokens.answers_word h .tableName) fun table ts₁ us₁ h₁ => ?_
    exact .ok ⟨rfl, h₁⟩
  | clear => exact Or.inr ⟨_, _, rfl, rfl, .ok ⟨rfl, h⟩⟩
  | exit => exact Or.inr ⟨_, _, rfl, rfl, .ok ⟨rfl, h⟩⟩
  | headed | source | references | outer => exact Or.inl ⟨rfl, rfl⟩

theorem answers_statementFront : Answers TakesSame (statementFront ts) (statementFront us) := by
  have hunexpected : Answers (α := Statement × Tokens) (β := Statement × Tokens) TakesSame
      (ts.refuse (.unexpected ts.next?)) (us.refuse (.unexpected us.next?)) :=
    .fault h.unexpected
  unfold statementFront
  rcases h.next? with ⟨ht, hu⟩ | ⟨l, m, ht, hu, hlm⟩
  · rw [ht, hu] at hunexpected ⊢
    exact hunexpected
  · rw [ht, hu] at hunexpected ⊢
    rcases hlm.keyword_or_eq with ⟨k, v, w, rfl, rfl⟩ | ⟨rfl, hkeyword⟩
    · dsimp only
      rcases answers_keywordStatement h.drop k with ⟨hnone, hnone'⟩ | ⟨x, y, hx, hy, hxy⟩
      · rw [hnone, hnone']
        exact hunexpected
      · rw [hx, hy]
        exact hxy
    · cases l with
      | keyword k w => exact absurd rfl (hkeyword k w)
      | word target =>
        refine (Tokens.answers_symbol h.drop .assign).bind fun ts₁ us₁ h₁ => ?_
        exact Tokens.bindSame (answers_operation h₁) fun o ts₂ us₂ h₂ => .ok ⟨rfl, h₂⟩
      | symbol | integer | quoted => exact hunexpected

theorem answers_finish : Answers (fun _ _ => True) (finish ts) (finish us) := by
  have hrest : ∀ {vs ws : Tokens}, vs.Alike ws → Answers (fun _ _ => True)
      (if vs.list.isEmpty then .ok () else vs.refuse (.unexpected vs.next?) : Except Error Unit)
      (if ws.list.isEmpty then .ok () else ws.refuse (.unexpected ws.next?) : Except Error Unit) := by
    intro vs ws hvs
    rw [hvs.isEmpty_list]
    split
    · exact .ok trivial
    · exact .fault hvs.unexpected
  unfold finish
  simp only [h.next?_eq_symbol]
  split
  · exact hrest h.drop
  · exact hrest h

theorem answers_statement : Answers Eq ts.statement us.statement := by
  unfold Tokens.statement
  refine Tokens.bindSame (answers_statementFront h) fun st ts₁ us₁ h₁ => ?_
  exact (answers_finish h₁).bind fun _ _ _ => .ok rfl

end

end TableAlgebra.Command
