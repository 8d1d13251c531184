import TableAlgebra.Proofs.Command.Grammar
import TableAlgebra.Proofs.Outcome

/-!
# What the readers of the parser take

Each reader of the parser takes lexemes from the front of the tokens, and what it takes is a phrase
of the grammar; tokens that start with such a phrase are read.

* `Reads ls ts us`                  the lexemes `ls` come off the front of `ts`, and `us` is left;
* `call_of_apply`, `apply_of_call`  arguments of any shape are read first, and those that fit are a
                                    call;
* `reads_of_statementFront`, `statementFront_of_reads`   a statement is read just if it is derived;
* `statement_eq_ok`                 and accepted if nothing but a semicolon follows.
-/

namespace TableAlgebra.Command

/-! ### Reading lexemes -/

namespace Tokens

def lexemes (ts : Tokens) : List Lexeme := ts.list.map (·.lexeme)

def Reads (ls : List Lexeme) (ts us : Tokens) : Prop :=
  ∃ taken : List Token, taken.map (·.lexeme) = ls ∧ ts = ⟨taken ++ us.list, us.stop⟩

theorem reads_nil {ts us : Tokens} : Reads [] ts us ↔ ts = us := by
  constructor
  · rintro ⟨taken, h, rfl⟩
    rw [List.map_eq_nil_iff.mp h]
    rfl
  · rintro rfl
    exact ⟨[], rfl, rfl⟩

theorem reads_append {ls ms : List Lexeme} {ts vs : Tokens} :
    Reads (ls ++ ms) ts vs ↔ ∃ us, Reads ls ts us ∧ Reads ms us vs := by
  constructor
  · rintro ⟨taken, h, rfl⟩
    obtain ⟨front, back, rfl, hf, hb⟩ := List.map_eq_append_iff.mp h
    have happ := List.append_assoc front back vs.list
    exact ⟨⟨back ++ vs.list, vs.stop⟩, ⟨front, hf, by rw [happ]⟩, ⟨back, hb, rfl⟩⟩
  · rintro ⟨us, ⟨front, hf, rfl⟩, ⟨back, hb, rfl⟩⟩
    exact ⟨front ++ back, by rw [List.map_append, hf, hb], by rw [List.append_assoc]⟩

theorem reads_cons {l : Lexeme} {ls : List Lexeme} {ts vs : Tokens} :
    Reads (l :: ls) ts vs ↔ ∃ us, Reads [l] ts us ∧ Reads ls us vs :=
  @reads_append [l] ls ts vs

theorem Reads.trans {ls ms : List Lexeme} {ts us vs : Tokens} (h : Reads ls ts us)
    (h' : Reads ms us vs) : Reads (ls ++ ms) ts vs := reads_append.mpr ⟨us, h, h'⟩

theorem reads_singleton {l : Lexeme} {ts us : Tokens} :
    Reads [l] ts us ↔ ts.next? = some l ∧ ts.drop = us := by
  constructor
  · rintro ⟨taken, h, rfl⟩
    obtain ⟨t, rfl, ht⟩ := List.map_eq_singleton_iff.mp h
    exact ⟨congrArg some ht, rfl⟩
  · rintro ⟨h, rfl⟩
    obtain ⟨list, stop⟩ := ts
    cases list with
    | nil => cases h
    | cons t rest => exact ⟨[t], congrArg (fun l => [l]) (Option.some.inj h), rfl⟩

theorem Reads.cons {ls : List Lexeme} {list : List Token} {stop : Place} {us : Tokens}
    (h : Reads ls ⟨list, stop⟩ us) (t : Token) : Reads (t.lexeme :: ls) ⟨t :: list, stop⟩ us := by
  obtain ⟨taken, ht, hts⟩ := h
  cases hts
  exact ⟨t :: taken, congrArg (t.lexeme :: ·) ht, rfl⟩

theorem Reads.exists_token {l : Lexeme} {ls : List Lexeme} {list : List Token} {stop : Place}
    {us : Tokens} (h : Reads (l :: ls) ⟨list, stop⟩ us) :
    ∃ p rest, list = ⟨l, p⟩ :: rest ∧ Reads ls ⟨rest, stop⟩ us := by
  obtain ⟨taken, ht, hts⟩ := h
  obtain ⟨t, taken, rfl, rfl, hls⟩ := List.map_eq_cons_iff.mp ht
  cases hts
  exact ⟨t.place, taken ++ us.list, rfl, taken, hls, rfl⟩

theorem lexemes_eq_append {ls ms : List Lexeme} {ts : Tokens} :
    ts.lexemes = ls ++ ms ↔ ∃ us, Reads ls ts us ∧ us.lexemes = ms := by
  constructor
  · intro h
    obtain ⟨front, back, hlist, hf, hb⟩ := List.map_eq_append_iff.mp h
    exact ⟨⟨back, ts.stop⟩, ⟨front, hf, by rw [← hlist]⟩, hb⟩
  · rintro ⟨us, ⟨taken, rfl, rfl⟩, rfl⟩
    exact List.map_append

/-! ### One lexeme -/

theorem refuse_ne_ok {α : Type} (ts : Tokens) (f : Fault) (a : α) : ts.refuse f ≠ .ok a :=
  fun h => nomatch h

theorem symbol_eq_ok {ts us : Tokens} {s : Symbol} :
    ts.symbol s = .ok us ↔ Reads [.symbol s] ts us := by
  rw [reads_singleton, symbol]
  split
  · next h => simp only [h, Except.ok.injEq, true_and]
  · next h => simp only [h, refuse_ne_ok, false_and]

theorem startsWith_iff {ts : Tokens} {k : Keyword} :
    ts.startsWith k = true ↔ ∃ w, ts.next? = some (.keyword k w) := by
  unfold startsWith
  split
  · next k' w h =>
    rw [h, decide_eq_true_iff]
    simp only [Option.some.injEq, Lexeme.keyword.injEq, exists_and_left, exists_eq', and_true]
    exact eq_comm
  · next h =>
    constructor
    · intro hk
      cases hk
    · rintro ⟨w, hw⟩
      exact absurd hw (h k w)

theorem keyword_eq_ok {ts us : Tokens} {k : Keyword} :
    ts.keyword k = .ok us ↔ ∃ w, Reads [.keyword k w] ts us := by
  simp only [reads_singleton, exists_and_right, ← startsWith_iff]
  rw [keyword]
  split
  · next h => simp only [h, Except.ok.injEq, true_and]
  · next h => simp [h, refuse_ne_ok]

theorem word_eq_ok {ts us : Tokens} {what : Wanted} {w : Text} :
    ts.word what = .ok (w, us) ↔ Reads [.word w] ts us := by
  rw [reads_singleton, word]
  split
  · next w' h => simp [h]
  · next h =>
    constructor
    · intro hr
      exact absurd hr (refuse_ne_ok _ _ _)
    · rintro ⟨hw, -⟩
      exact absurd hw (h w)

end Tokens

namespace Tokens

theorem path_eq_ok {ts us : Tokens} {v : Text} :
    ts.path = .ok (v, us) ↔ ∃ l, IsLiteral l v ∧ Reads [l] ts us := by
  simp only [reads_singleton, ← Lexeme.literal?_eq_some]
  rw [path]
  cases ts.next? with
  | none => simp [refuse_ne_ok]
  | some l => cases h : l.literal? <;> simp [h, refuse_ne_ok]

theorem column_eq_ok {ts us : Tokens} {c : ColumnRef} :
    ts.column = .ok (c, us) ↔ ∃ l, IsColumn l c ∧ Reads [l] ts us := by
  simp only [reads_singleton, ← Lexeme.column?_eq_some]
  rw [column]
  cases ts.next? with
  | none => simp [refuse_ne_ok]
  | some l => cases h : l.column? <;> simp [h, refuse_ne_ok]

theorem tableColumn_eq_ok {ts us : Tokens} {t : Text} {c : ColumnRef} :
    ts.tableColumn = .ok ((t, c), us) ↔
      ∃ l, IsColumn l c ∧ Reads [.word t, .symbol .lparen, l, .symbol .rparen] ts us := by
  constructor
  · intro h
    obtain ⟨⟨t', ts₁⟩, h₁, h⟩ := bind_eq_ok.mp h
    obtain ⟨ts₂, h₂, h⟩ := bind_eq_ok.mp h
    obtain ⟨⟨c', ts₃⟩, h₃, h⟩ := bind_eq_ok.mp h
    obtain ⟨ts₄, h₄, h⟩ := bind_eq_ok.mp h
    cases h
    obtain ⟨l, hl, h₃⟩ := column_eq_ok.mp h₃
    have h₁₂ := (word_eq_ok.mp h₁).trans (symbol_eq_ok.mp h₂)
    exact ⟨l, hl, h₁₂.trans (h₃.trans (symbol_eq_ok.mp h₄))⟩
  · rintro ⟨l, hl, h⟩
    obtain ⟨ts₁, h₁, h⟩ := reads_cons.mp h
    obtain ⟨ts₂, h₂, h⟩ := reads_cons.mp h
    obtain ⟨ts₃, h₃, h₄⟩ := reads_cons.mp h
    refine bind_eq_ok.mpr ⟨(t, ts₁), word_eq_ok.mpr h₁, ?_⟩
    refine bind_eq_ok.mpr ⟨ts₂, symbol_eq_ok.mpr h₂, ?_⟩
    refine bind_eq_ok.mpr ⟨(c, ts₃), column_eq_ok.mpr ⟨l, hl, h₃⟩, ?_⟩
    exact bind_eq_ok.mpr ⟨us, symbol_eq_ok.mpr h₄, rfl⟩

end Tokens

/-! ### Type tags -/

theorem reads_of_typeTags {stop : Place} {list : List Token} {ws : List Text} {us : Tokens}
    (h : typeTags stop list = .ok (ws, us)) :
    ∃ ls, (Tags ls ws ∨ ls = [] ∧ ws = []) ∧
      Tokens.Reads (ls ++ [.symbol .rparen]) ⟨list, stop⟩ us := by
  fun_induction typeTags stop list generalizing ws us with
  | case1 => cases h
  | case2 p ts =>
    cases h
    exact ⟨[], Or.inr ⟨rfl, rfl⟩, (Tokens.reads_nil.mpr rfl).cons ⟨_, p⟩⟩
  | case3 w p q ts ih =>
    obtain ⟨⟨ws', us'⟩, h', e⟩ := map_eq_ok.mp h
    cases e
    obtain ⟨ls, htags, hreads⟩ := ih h'
    refine ⟨.word w :: .symbol .comma :: ls, Or.inl ?_, (hreads.cons ⟨_, q⟩).cons ⟨_, p⟩⟩
    rcases htags with htags | ⟨rfl, rfl⟩
    · exact .nextComma w htags
    · exact .lastComma w
  | case4 w p ts _ ih =>
    obtain ⟨⟨ws', us'⟩, h', e⟩ := map_eq_ok.mp h
    cases e
    obtain ⟨ls, htags, hreads⟩ := ih h'
    refine ⟨.word w :: ls, Or.inl ?_, hreads.cons ⟨_, p⟩⟩
    rcases htags with htags | ⟨rfl, rfl⟩
    · exact .next w htags
    · exact .last w
  | case5 => cases h

theorem typeTags_of_reads {stop : Place} {list : List Token} {ls : List Lexeme} {ws : List Text}
    {us : Tokens} (htags : Tags ls ws)
    (h : Tokens.Reads (ls ++ [.symbol .rparen]) ⟨list, stop⟩ us) :
    typeTags stop list = .ok (ws, us) := by
  induction htags generalizing list with
  | last w =>
    obtain ⟨p, list, rfl, h₁⟩ := h.exists_token
    obtain ⟨q, list, rfl, h₂⟩ := h₁.exists_token
    cases Tokens.reads_nil.mp h₂
    rfl
  | lastComma w =>
    obtain ⟨p, list, rfl, h₁⟩ := h.exists_token
    obtain ⟨q, list, rfl, h₂⟩ := h₁.exists_token
    obtain ⟨r, list, rfl, h₃⟩ := h₂.exists_token
    cases Tokens.reads_nil.mp h₃
    rfl
  | next w rest ih =>
    obtain ⟨p, list, rfl, h₁⟩ := h.exists_token
    obtain ⟨v, ls, rfl⟩ := rest.exists_word
    obtain ⟨q, list, rfl, -⟩ := h₁.exists_token
    show (typeTags stop (⟨.word v, q⟩ :: list)).map _ = _
    rw [ih h₁]
    rfl
  | nextComma w rest ih =>
    obtain ⟨p, list, rfl, h₁⟩ := h.exists_token
    obtain ⟨q, list, rfl, h₂⟩ := h₁.exists_token
    show (typeTags stop list).map _ = _
    rw [ih h₂]
    rfl

/-! ### Arguments -/

theorem reads_of_argumentList {stop : Place} {list args : List Token} {us : Tokens}
    (h : argumentList stop list = .ok (args, us)) : args ≠ [] ∧
      Tokens.Reads ((args.map (·.lexeme)).intersperse (.symbol .comma)) ⟨list, stop⟩ us := by
  fun_induction argumentList stop list generalizing args us with
  | case1 => cases h
  | case2 t ht =>
    cases h
    exact ⟨List.cons_ne_nil _ _, (Tokens.reads_nil.mpr rfl).cons t⟩
  | case3 => cases h
  | case4 t u ts ht hu ih =>
    obtain ⟨⟨args', us'⟩, h', e⟩ := map_eq_ok.mp h
    cases e
    obtain ⟨hne, hreads⟩ := ih h'
    refine ⟨List.cons_ne_nil _ _, ?_⟩
    cases args' with
    | nil => exact absurd rfl hne
    | cons a args' => exact hu ▸ (hreads.cons u).cons t
  | case5 t u ts ht hu =>
    cases h
    exact ⟨List.cons_ne_nil _ _, (Tokens.reads_nil.mpr rfl).cons t⟩
  | case6 => cases h

theorem argumentList_of_reads {stop : Place} {list : List Token} {args : List Lexeme} {us : Tokens}
    (hne : args ≠ []) (hargs : ∀ l ∈ args, l.isArgument = true)
    (hus : us.next? ≠ some (.symbol .comma))
    (h : Tokens.Reads (args.intersperse (.symbol .comma)) ⟨list, stop⟩ us) :
    ∃ ts, argumentList stop list = .ok (ts, us) ∧ ts.map (·.lexeme) = args := by
  induction args generalizing list with
  | nil => exact absurd rfl hne
  | cons l args ih =>
    have hl := hargs l List.mem_cons_self
    cases args with
    | nil =>
      obtain ⟨p, list, rfl, h₁⟩ := h.exists_token
      cases Tokens.reads_nil.mp h₁
      refine ⟨[⟨l, p⟩], ?_, rfl⟩
      cases list with
      | nil => exact if_pos hl
      | cons u rest =>
        have hu : u.lexeme ≠ .symbol .comma := fun e => hus (congrArg some e)
        rw [argumentList, if_pos hl, if_neg hu]
    | cons m args =>
      obtain ⟨p, list, rfl, h₁⟩ := h.exists_token
      obtain ⟨q, list, rfl, h₂⟩ := h₁.exists_token
      obtain ⟨ts, hts, hm⟩ := ih (List.cons_ne_nil _ _)
        (fun l hl => hargs l (List.mem_cons_of_mem _ hl)) h₂
      refine ⟨⟨l, p⟩ :: ts, ?_, congrArg (l :: ·) hm⟩
      rw [argumentList, if_pos hl, if_pos rfl, hts]
      rfl

theorem reads_of_arguments {ts us : Tokens} {args : List Token}
    (h : arguments ts = .ok (args, us)) :
    Tokens.Reads ((args.map (·.lexeme)).intersperse (.symbol .comma)) ts us := by
  unfold arguments at h
  split at h
  · cases h
    exact Tokens.reads_nil.mpr rfl
  · exact (reads_of_argumentList h).2

theorem arguments_of_reads {ts us : Tokens} {args : List Lexeme}
    (hargs : ∀ l ∈ args, l.isArgument = true) (hus : us.next? = some (.symbol .rparen))
    (h : Tokens.Reads (args.intersperse (.symbol .comma)) ts us) :
    ∃ tokens, arguments ts = .ok (tokens, us) ∧ tokens.map (·.lexeme) = args := by
  cases args with
  | nil =>
    cases Tokens.reads_nil.mp h
    exact ⟨[], if_pos hus, rfl⟩
  | cons l args =>
    have hcomma : us.next? ≠ some (.symbol .comma) := by simp [hus]
    obtain ⟨list, stop⟩ := ts
    have hnext : (⟨list, stop⟩ : Tokens).next? = some l := by
      cases args with
      | nil => exact (Tokens.reads_singleton.mp h).1
      | cons m args =>
        obtain ⟨p, list, rfl, -⟩ := h.exists_token
        rfl
    have hl : l ≠ .symbol .rparen := fun e => by
      have harg := hargs l List.mem_cons_self
      rw [e] at harg
      cases harg
    rw [arguments, hnext, if_neg fun e => hl (Option.some.inj e)]
    exact argumentList_of_reads (List.cons_ne_nil _ _) hargs hcomma h

/-! ### Operations -/

theorem Token.want_eq_ok {α : Type} {t : Token} {role : Lexeme → Option α} {what : Wanted} {a : α} :
    t.want role what = .ok a ↔ role t.lexeme = some a := by
  unfold want
  split
  · next h => rw [h, Except.ok.injEq, Option.some.injEq]
  · next h => simp [h]

theorem Token.table_eq_ok {t : Token} {name : Text} :
    t.table = .ok name ↔ t.lexeme = .word name := want_eq_ok.trans Lexeme.table?_eq_some

theorem Token.column_eq_ok {t : Token} {c : ColumnRef} :
    t.column = .ok c ↔ IsColumn t.lexeme c := want_eq_ok.trans Lexeme.column?_eq_some

theorem Token.literal_eq_ok {t : Token} {v : Text} :
    t.literal = .ok v ↔ IsLiteral t.lexeme v := want_eq_ok.trans Lexeme.literal?_eq_some

theorem Token.comparison_eq_ok {t : Token} {v : Text} :
    t.comparison = .ok v ↔ ∃ s ∈ comparisons, t.lexeme = .symbol s ∧ s.text = v :=
  want_eq_ok.trans Lexeme.comparison?_eq_some

theorem mapM_column_eq_ok {ts : List Token} {cs : List ColumnRef} :
    ts.mapM Token.column = .ok cs ↔ List.Forall₂ IsColumn (ts.map (·.lexeme)) cs := by
  induction ts generalizing cs with
  | nil =>
    constructor
    · intro h
      cases h
      exact .nil
    · intro h
      cases h
      rfl
  | cons t ts ih =>
    rw [mapM_cons, bind_eq_ok, List.map_cons]
    constructor
    · rintro ⟨c, hc, h⟩
      obtain ⟨cs, hcs, h⟩ := bind_eq_ok.mp h
      cases h
      exact .cons (Token.column_eq_ok.mp hc) (ih.mp hcs)
    · intro h
      obtain ⟨c, cs, hc, hcs, rfl⟩ := List.forall₂_cons_left_iff.mp h
      exact ⟨c, Token.column_eq_ok.mpr hc, bind_eq_ok.mpr ⟨cs, ih.mpr hcs, rfl⟩⟩

theorem Operator.call_of_apply {op : Operator} {outer : Bool} {p : Place} {args : List Token}
    {o : Operation} (houter : outer = true → op.hasOuter = true)
    (h : op.apply outer p args = .ok o) : Call op outer (args.map (·.lexeme)) o := by
  have hinner : op.hasOuter = false → outer = false := fun hno =>
    Bool.eq_false_iff.mpr fun hyes => by simp [houter hyes] at hno
  unfold apply at h
  split at h
  · next t c r v =>
    obtain ⟨symbol, hsymbol, h⟩ := bind_eq_ok.mp h
    obtain ⟨literal, hliteral, h⟩ := bind_eq_ok.mp h
    obtain ⟨table, htable, h⟩ := bind_eq_ok.mp h
    obtain ⟨column, hcolumn, h⟩ := bind_eq_ok.mp h
    cases h
    obtain ⟨s, hs, hr, rfl⟩ := Token.comparison_eq_ok.mp hsymbol
    simp only [List.map_cons, List.map_nil, Token.table_eq_ok.mp htable, hr, hinner rfl]
    exact .rows table (Token.column_eq_ok.mp hcolumn) hs (Token.literal_eq_ok.mp hliteral)
  · next t cs =>
    obtain ⟨table, htable, h⟩ := bind_eq_ok.mp h
    obtain ⟨columns, hcolumns, h⟩ := bind_eq_ok.mp h
    cases h
    simp only [List.map_cons, Token.table_eq_ok.mp htable, hinner rfl]
    exact .columns table (mapM_column_eq_ok.mp hcolumns)
  · next l r =>
    obtain ⟨left, hleft, h⟩ := bind_eq_ok.mp h
    obtain ⟨right, hright, h⟩ := bind_eq_ok.mp h
    cases h
    simp only [List.map_cons, List.map_nil, Token.table_eq_ok.mp hleft,
      Token.table_eq_ok.mp hright, hinner rfl]
    exact .product left right
  · next l r c d cs =>
    split at h
    · next heven =>
      obtain ⟨refs, hrefs, h⟩ := bind_eq_ok.mp h
      obtain ⟨left, hleft, h⟩ := bind_eq_ok.mp h
      obtain ⟨right, hright, h⟩ := bind_eq_ok.mp h
      cases h
      have hforall := mapM_column_eq_ok.mp hrefs
      have hpairs := pairs_of_forall₂ hforall (by simp; omega)
      rw [List.map_cons, List.map_cons, Token.table_eq_ok.mp hleft, Token.table_eq_ok.mp hright]
      refine .join outer left right hpairs fun e => ?_
      rw [e] at hpairs
      cases hpairs
    · cases h
  · next l r =>
    obtain ⟨left, hleft, h⟩ := bind_eq_ok.mp h
    obtain ⟨right, hright, h⟩ := bind_eq_ok.mp h
    cases h
    simp only [List.map_cons, List.map_nil, Token.table_eq_ok.mp hleft,
      Token.table_eq_ok.mp hright]
    exact .naturalJoin outer left right
  · next t c =>
    obtain ⟨table, htable, h⟩ := bind_eq_ok.mp h
    obtain ⟨column, hcolumn, h⟩ := bind_eq_ok.mp h
    cases h
    simp only [List.map_cons, List.map_nil, Token.table_eq_ok.mp htable, hinner rfl]
    exact .orderBy table (Token.column_eq_ok.mp hcolumn)
  · cases h

theorem Operator.apply_of_call {op : Operator} {outer : Bool} {args : List Token} {o : Operation}
    (h : Call op outer (args.map (·.lexeme)) o) (p : Place) : op.apply outer p args = .ok o := by
  generalize hls : args.map (·.lexeme) = ls at h
  cases h with
  | rows t column comparison literal =>
    simp only [List.map_eq_cons_iff, List.map_eq_nil_iff] at hls
    obtain ⟨t₁, _, rfl, h₁, t₂, _, rfl, h₂, t₃, _, rfl, h₃, t₄, _, rfl, h₄, rfl⟩ := hls
    have htable := Token.table_eq_ok.mpr h₁
    have hcolumn := Token.column_eq_ok.mpr (h₂ ▸ column)
    have hsymbol := Token.comparison_eq_ok.mpr ⟨_, comparison, h₃, rfl⟩
    have hliteral := Token.literal_eq_ok.mpr (h₄ ▸ literal)
    simp only [apply, hsymbol, hliteral, htable, hcolumn]
    rfl
  | columns t columns =>
    obtain ⟨t₁, ts, rfl, h₁, rfl⟩ := List.map_eq_cons_iff.mp hls
    simp only [apply, Token.table_eq_ok.mpr h₁, mapM_column_eq_ok.mpr columns]
    rfl
  | product l r =>
    simp only [List.map_eq_cons_iff, List.map_eq_nil_iff] at hls
    obtain ⟨t₁, _, rfl, h₁, t₂, _, rfl, h₂, rfl⟩ := hls
    simp only [apply, Token.table_eq_ok.mpr h₁, Token.table_eq_ok.mpr h₂]
    rfl
  | join outer l r pairs nonempty =>
    simp only [List.map_eq_cons_iff] at hls
    obtain ⟨t₁, _, rfl, h₁, t₂, ts, rfl, h₂, rfl⟩ := hls
    obtain ⟨heven, cs, hcs, rfl⟩ := pairs.forall₂
    rw [List.length_map] at heven
    match ts, heven, hcs with
    | [], _, hcs =>
      cases hcs
      exact absurd rfl nonempty
    | [_], heven, _ => cases heven
    | c :: d :: ts, heven, hcs =>
      have heven' : ts.length % 2 = 0 := by
        simp only [List.length_cons] at heven
        omega
      simp only [apply, if_pos heven', mapM_column_eq_ok.mpr hcs, Token.table_eq_ok.mpr h₁,
        Token.table_eq_ok.mpr h₂]
      rfl
  | naturalJoin outer l r =>
    simp only [List.map_eq_cons_iff, List.map_eq_nil_iff] at hls
    obtain ⟨t₁, _, rfl, h₁, t₂, _, rfl, h₂, rfl⟩ := hls
    simp only [apply, Token.table_eq_ok.mpr h₁, Token.table_eq_ok.mpr h₂]
    rfl
  | orderBy t column =>
    simp only [List.map_eq_cons_iff, List.map_eq_nil_iff] at hls
    obtain ⟨t₁, _, rfl, h₁, t₂, _, rfl, h₂, rfl⟩ := hls
    simp only [apply, Token.table_eq_ok.mpr h₁, Token.column_eq_ok.mpr (h₂ ▸ column)]
    rfl

theorem Tokens.keyword?_eq {ts us : Tokens} {k : Keyword} {found : Bool}
    (h : ts.keyword? k = (found, us)) :
    if found then ∃ w, Reads [.keyword k w] ts us else us = ts := by
  unfold keyword? at h
  split at h
  · next hk =>
    cases h
    obtain ⟨w, hw⟩ := startsWith_iff.mp hk
    exact ⟨w, reads_singleton.mpr ⟨hw, rfl⟩⟩
  · cases h
    rfl

theorem Tokens.keyword?_of_reads {ts us : Tokens} {k : Keyword} {w : Text}
    (h : Reads [.keyword k w] ts us) : ts.keyword? k = (true, us) := by
  obtain ⟨hw, rfl⟩ := reads_singleton.mp h
  exact if_pos (startsWith_iff.mpr ⟨w, hw⟩)

theorem Tokens.keyword?_of_word {ts us : Tokens} {w : Text} (h : Reads [.word w] ts us)
    (k : Keyword) : ts.keyword? k = (false, ts) := by
  have hw := (reads_singleton.mp h).1
  refine if_neg fun hk => ?_
  obtain ⟨v, hv⟩ := startsWith_iff.mp hk
  rw [hw] at hv
  cases hv

theorem reads_of_operation {ts us : Tokens} {o : Operation} (h : operation ts = .ok (o, us)) :
    ∃ ls, Invokes ls o ∧ Tokens.Reads ls ts us := by
  unfold operation at h
  cases hk : ts.keyword? .outer with
  | mk outer ts₁ =>
    rw [hk] at h
    obtain ⟨⟨w, ts₂⟩, hw, h⟩ := bind_eq_ok.mp h
    dsimp only at h
    split at h
    · cases h
    · next op hop =>
      split at h
      · cases h
      · next houter =>
        obtain ⟨ts₃, hl, h⟩ := bind_eq_ok.mp h
        obtain ⟨⟨args, ts₄⟩, hargs, h⟩ := bind_eq_ok.mp h
        obtain ⟨ts₅, hr, h⟩ := bind_eq_ok.mp h
        obtain ⟨o', ho, h⟩ := bind_eq_ok.mp h
        cases h
        have hname := Operator.ofWord?_eq_some.mp hop
        have hcall := Operator.call_of_apply (fun e => by simpa [e] using houter) ho
        have hclose := (reads_of_arguments hargs).trans (Tokens.symbol_eq_ok.mp hr)
        have hreads := (Tokens.word_eq_ok.mp hw).trans ((Tokens.symbol_eq_ok.mp hl).trans hclose)
        have hkey := Tokens.keyword?_eq hk
        cases outer with
        | false => exact ⟨_, .inner w hname hcall, hkey ▸ hreads⟩
        | true =>
          obtain ⟨k, hkey⟩ := hkey
          exact ⟨_, .outer k w hname hcall, hkey.trans hreads⟩

theorem operation_of_reads {ts us : Tokens} {ls : List Lexeme} {o : Operation} (h : Invokes ls o)
    (hreads : Tokens.Reads ls ts us) : operation ts = .ok (o, us) := by
  have tail : ∀ {outer : Bool} {w : Text} {op : Operator} {args : List Lexeme} {ts₁ : Tokens},
      ts.keyword? .outer = (outer, ts₁) → w.lower = op.name → Call op outer args o →
      Tokens.Reads (.word w :: parenthesized args) ts₁ us → operation ts = .ok (o, us) := by
    intro outer w op args ts₁ hk hname hcall hreads
    obtain ⟨ts₂, hw, hreads⟩ := Tokens.reads_cons.mp hreads
    obtain ⟨ts₃, hl, hreads⟩ := Tokens.reads_cons.mp hreads
    obtain ⟨ts₄, hargs, hr⟩ := Tokens.reads_append.mp hreads
    have hnext := (Tokens.reads_singleton.mp hr).1
    obtain ⟨tokens, htokens, rfl⟩ := arguments_of_reads hcall.isArgument hnext hargs
    have houter : (outer && !op.hasOuter) = false := by
      cases outer with
      | false => rfl
      | true => rw [hcall.hasOuter]; rfl
    unfold operation
    rw [hk]
    refine bind_eq_ok.mpr ⟨(w, ts₂), Tokens.word_eq_ok.mpr hw, ?_⟩
    dsimp only
    rw [Operator.ofWord?_eq_some.mpr hname]
    dsimp only
    rw [houter, if_neg Bool.false_ne_true]
    refine bind_eq_ok.mpr ⟨ts₃, Tokens.symbol_eq_ok.mpr hl, ?_⟩
    refine bind_eq_ok.mpr ⟨(tokens, ts₄), htokens, ?_⟩
    refine bind_eq_ok.mpr ⟨us, Tokens.symbol_eq_ok.mpr hr, ?_⟩
    exact bind_eq_ok.mpr ⟨o, Operator.apply_of_call hcall _, rfl⟩
  cases h with
  | inner w name call =>
    obtain ⟨ts₁, hw, -⟩ := Tokens.reads_cons.mp hreads
    exact tail (Tokens.keyword?_of_word hw _) name call hreads
  | outer k w name call =>
    obtain ⟨ts₁, hk, hreads⟩ := Tokens.reads_cons.mp hreads
    exact tail (Tokens.keyword?_of_reads hk) name call hreads

/-! ### Statements -/

theorem reads_of_keywordStatement {k : Keyword} {ts us : Tokens} {st : Statement}
    (h : keywordStatement k ts = some (.ok (st, us))) (w : Text) :
    ∃ ls, Derives (.keyword k w :: ls) st ∧ Tokens.Reads ls ts us := by
  unfold keywordStatement at h
  split at h
  · obtain ⟨⟨t, ts₁⟩, ht, h⟩ := bind_eq_ok.mp (Option.some.inj h)
    obtain ⟨ts₂, hl, h⟩ := bind_eq_ok.mp h
    obtain ⟨⟨types, ts₃⟩, htypes, h⟩ := bind_eq_ok.mp h
    dsimp only at h
    split at h
    · cases h
    · next hne =>
      cases h
      obtain ⟨ls, htags | ⟨-, rfl⟩, hls⟩ := reads_of_typeTags htypes
      · have hreads := (Tokens.word_eq_ok.mp ht).trans ((Tokens.symbol_eq_ok.mp hl).trans hls)
        exact ⟨_, .define w t htags, hreads⟩
      · exact absurd rfl hne
  · cases hk : ts.keyword? .headed with
    | mk headed ts₁ =>
      rw [hk] at h
      obtain ⟨⟨t, ts₂⟩, ht, h⟩ := bind_eq_ok.mp (Option.some.inj h)
      obtain ⟨ts₃, hf, h⟩ := bind_eq_ok.mp h
      obtain ⟨⟨v, ts₄⟩, hv, h⟩ := bind_eq_ok.mp h
      cases h
      obtain ⟨f, hf⟩ := Tokens.keyword_eq_ok.mp hf
      obtain ⟨l, hl, hv⟩ := Tokens.path_eq_ok.mp hv
      have hreads := (Tokens.word_eq_ok.mp ht).trans (hf.trans hv)
      have hkey := Tokens.keyword?_eq hk
      cases headed with
      | false => exact ⟨_, .load w t f hl, hkey ▸ hreads⟩
      | true =>
        obtain ⟨k, hkey⟩ := hkey
        exact ⟨_, .loadHeaded w k t f hl, hkey.trans hreads⟩
  · obtain ⟨⟨t, ts₁⟩, ht, h⟩ := bind_eq_ok.mp (Option.some.inj h)
    obtain ⟨⟨v, ts₂⟩, hv, h⟩ := bind_eq_ok.mp h
    cases h
    obtain ⟨l, hl, hv⟩ := Tokens.path_eq_ok.mp hv
    exact ⟨_, .save w t hl, (Tokens.word_eq_ok.mp ht).trans hv⟩
  · obtain ⟨⟨t, ts₁⟩, ht, h⟩ := bind_eq_ok.mp (Option.some.inj h)
    cases h
    exact ⟨_, .print w t, Tokens.word_eq_ok.mp ht⟩
  · obtain ⟨⟨⟨t, c⟩, ts₁⟩, ht, h⟩ := bind_eq_ok.mp (Option.some.inj h)
    obtain ⟨ts₂, hr, h⟩ := bind_eq_ok.mp h
    obtain ⟨⟨⟨u, d⟩, ts₃⟩, hu, h⟩ := bind_eq_ok.mp h
    cases h
    obtain ⟨l, hc, ht⟩ := Tokens.tableColumn_eq_ok.mp ht
    obtain ⟨r, hr⟩ := Tokens.keyword_eq_ok.mp hr
    obtain ⟨m, hd, hu⟩ := Tokens.tableColumn_eq_ok.mp hu
    exact ⟨_, .check w t r u hc hd, ht.trans (hr.trans hu)⟩
  · obtain ⟨⟨t, ts₁⟩, ht, h⟩ := bind_eq_ok.mp (Option.some.inj h)
    cases h
    exact ⟨_, .remove w t, Tokens.word_eq_ok.mp ht⟩
  · cases h
    exact ⟨_, .clear w, Tokens.reads_nil.mpr rfl⟩
  · cases h
    exact ⟨_, .exit w, Tokens.reads_nil.mpr rfl⟩
  · cases h

theorem reads_of_statementFront {ts us : Tokens} {st : Statement}
    (h : statementFront ts = .ok (st, us)) : ∃ ls, Derives ls st ∧ Tokens.Reads ls ts us := by
  unfold statementFront at h
  split at h
  · next k w hk =>
    have hkey : Tokens.Reads [.keyword k w] ts ts.drop := Tokens.reads_singleton.mpr ⟨hk, rfl⟩
    split at h
    · next x hx =>
      obtain ⟨ls, hls, hreads⟩ := reads_of_keywordStatement (hx.trans (congrArg some h)) w
      exact ⟨_, hls, hkey.trans hreads⟩
    · cases h
  · next t ht =>
    have hword : Tokens.Reads [.word t] ts ts.drop := Tokens.reads_singleton.mpr ⟨ht, rfl⟩
    obtain ⟨ts₁, ha, h⟩ := bind_eq_ok.mp h
    obtain ⟨⟨o, ts₂⟩, ho, h⟩ := bind_eq_ok.mp h
    cases h
    obtain ⟨ls, hls, hreads⟩ := reads_of_operation ho
    exact ⟨_, .assign t hls, hword.trans ((Tokens.symbol_eq_ok.mp ha).trans hreads)⟩
  · cases h

theorem statementFront_of_keyword {k : Keyword} {w : Text} {ts us : Tokens}
    {x : Except Error (Statement × Tokens)} (hk : Tokens.Reads [.keyword k w] ts us)
    (h : keywordStatement k us = some x) : statementFront ts = x := by
  obtain ⟨hnext, rfl⟩ := Tokens.reads_singleton.mp hk
  unfold statementFront
  rw [hnext]
  dsimp only
  rw [h]

theorem statementFront_of_reads {ts us : Tokens} {ls : List Lexeme} {st : Statement}
    (h : Derives ls st) (hreads : Tokens.Reads ls ts us) : statementFront ts = .ok (st, us) := by
  obtain ⟨l, rest, rfl⟩ : ∃ l rest, ls = l :: rest := by cases h <;> exact ⟨_, _, rfl⟩
  obtain ⟨ts₁, hk, hrest⟩ := Tokens.reads_cons.mp hreads
  cases h with
  | @define k t ls types tags =>
    obtain ⟨ts₂, ht, hrest⟩ := Tokens.reads_cons.mp hrest
    obtain ⟨ts₃, hl, hrest⟩ := Tokens.reads_cons.mp hrest
    have hne : types.isEmpty = false := by cases tags <;> rfl
    refine (statementFront_of_keyword hk rfl).trans ?_
    refine bind_eq_ok.mpr ⟨(t, ts₂), Tokens.word_eq_ok.mpr ht, ?_⟩
    refine bind_eq_ok.mpr ⟨ts₃, Tokens.symbol_eq_ok.mpr hl, ?_⟩
    refine bind_eq_ok.mpr ⟨(types, us), typeTags_of_reads tags hrest, ?_⟩
    exact if_neg (Bool.eq_false_iff.mp hne)
  | @load k t f l v path =>
    obtain ⟨ts₂, ht, hrest'⟩ := Tokens.reads_cons.mp hrest
    obtain ⟨ts₃, hf, hv⟩ := Tokens.reads_cons.mp hrest'
    refine (statementFront_of_keyword hk rfl).trans ?_
    rw [Tokens.keyword?_of_word ht]
    refine bind_eq_ok.mpr ⟨(t, ts₂), Tokens.word_eq_ok.mpr ht, ?_⟩
    refine bind_eq_ok.mpr ⟨ts₃, Tokens.keyword_eq_ok.mpr ⟨f, hf⟩, ?_⟩
    exact bind_eq_ok.mpr ⟨(v, us), Tokens.path_eq_ok.mpr ⟨l, path, hv⟩, rfl⟩
  | @loadHeaded k h t f l v path =>
    obtain ⟨ts₂, hh, hrest⟩ := Tokens.reads_cons.mp hrest
    obtain ⟨ts₃, ht, hrest⟩ := Tokens.reads_cons.mp hrest
    obtain ⟨ts₄, hf, hv⟩ := Tokens.reads_cons.mp hrest
    refine (statementFront_of_keyword hk rfl).trans ?_
    rw [Tokens.keyword?_of_reads hh]
    refine bind_eq_ok.mpr ⟨(t, ts₃), Tokens.word_eq_ok.mpr ht, ?_⟩
    refine bind_eq_ok.mpr ⟨ts₄, Tokens.keyword_eq_ok.mpr ⟨f, hf⟩, ?_⟩
    exact bind_eq_ok.mpr ⟨(v, us), Tokens.path_eq_ok.mpr ⟨l, path, hv⟩, rfl⟩
  | @save k t l v path =>
    obtain ⟨ts₂, ht, hv⟩ := Tokens.reads_cons.mp hrest
    refine (statementFront_of_keyword hk rfl).trans ?_
    refine bind_eq_ok.mpr ⟨(t, ts₂), Tokens.word_eq_ok.mpr ht, ?_⟩
    exact bind_eq_ok.mpr ⟨(v, us), Tokens.path_eq_ok.mpr ⟨l, path, hv⟩, rfl⟩
  | print k t =>
    refine (statementFront_of_keyword hk rfl).trans ?_
    exact bind_eq_ok.mpr ⟨(t, us), Tokens.word_eq_ok.mpr hrest, rfl⟩
  | @check k t r u l m c d column refColumn =>
    have hrest' : Tokens.Reads ([.word t, .symbol .lparen, l, .symbol .rparen] ++
      [.keyword .references r, .word u, .symbol .lparen, m, .symbol .rparen]) ts₁ us := hrest
    obtain ⟨ts₂, ht, hrest'⟩ := Tokens.reads_append.mp hrest'
    obtain ⟨ts₃, hr, hu⟩ := Tokens.reads_cons.mp hrest'
    refine (statementFront_of_keyword hk rfl).trans ?_
    refine bind_eq_ok.mpr ⟨((t, c), ts₂), Tokens.tableColumn_eq_ok.mpr ⟨l, column, ht⟩, ?_⟩
    refine bind_eq_ok.mpr ⟨ts₃, Tokens.keyword_eq_ok.mpr ⟨r, hr⟩, ?_⟩
    exact bind_eq_ok.mpr ⟨((u, d), us), Tokens.tableColumn_eq_ok.mpr ⟨m, refColumn, hu⟩, rfl⟩
  | remove k t =>
    refine (statementFront_of_keyword hk rfl).trans ?_
    exact bind_eq_ok.mpr ⟨(t, us), Tokens.word_eq_ok.mpr hrest, rfl⟩
  | clear k =>
    cases Tokens.reads_nil.mp hrest
    exact statementFront_of_keyword hk rfl
  | exit k =>
    cases Tokens.reads_nil.mp hrest
    exact statementFront_of_keyword hk rfl
  | @assign t ls o operation =>
    obtain ⟨ts₂, ha, ho⟩ := Tokens.reads_cons.mp hrest
    obtain ⟨hnext, rfl⟩ := Tokens.reads_singleton.mp hk
    unfold statementFront
    rw [hnext]
    refine bind_eq_ok.mpr ⟨ts₂, Tokens.symbol_eq_ok.mpr ha, ?_⟩
    exact bind_eq_ok.mpr ⟨(o, us), operation_of_reads operation ho, rfl⟩

theorem finish_eq_ok {ts : Tokens} :
    finish ts = .ok () ↔ ts.lexemes = [] ∨ ts.lexemes = [.symbol .semicolon] := by
  obtain ⟨list, stop⟩ := ts
  unfold finish Tokens.lexemes
  cases list with
  | nil => simp [Tokens.next?]
  | cons t list =>
    by_cases ht : t.lexeme = .symbol .semicolon
    · simp [Tokens.next?, Tokens.drop, ht, Tokens.refuse_ne_ok]
    · simp [Tokens.next?, ht, Tokens.refuse_ne_ok]

theorem Tokens.statement_eq_ok {ts : Tokens} {st : Statement} :
    ts.statement = .ok st ↔ ∃ ls, Derives ls st ∧
      (ts.lexemes = ls ∨ ts.lexemes = ls ++ [.symbol .semicolon]) := by
  constructor
  · intro h
    obtain ⟨⟨st', us⟩, hfront, h⟩ := bind_eq_ok.mp h
    obtain ⟨⟨⟩, hfinish, h⟩ := bind_eq_ok.mp h
    cases h
    obtain ⟨ls, hls, hreads⟩ := reads_of_statementFront hfront
    have hlexemes := lexemes_eq_append.mpr ⟨us, hreads, rfl⟩
    refine ⟨ls, hls, ?_⟩
    rcases finish_eq_ok.mp hfinish with he | he
    · exact Or.inl (by rw [hlexemes, he, List.append_nil])
    · exact Or.inr (by rw [hlexemes, he])
  · rintro ⟨ls, hls, h⟩
    obtain ⟨us, hreads, hus⟩ : ∃ us, Reads ls ts us ∧
        (us.lexemes = [] ∨ us.lexemes = [.symbol .semicolon]) := by
      rcases h with h | h
      · obtain ⟨us, hreads, he⟩ := lexemes_eq_append.mp (h.trans (List.append_nil ls).symm)
        exact ⟨us, hreads, Or.inl he⟩
      · obtain ⟨us, hreads, he⟩ := lexemes_eq_append.mp h
        exact ⟨us, hreads, Or.inr he⟩
    refine bind_eq_ok.mpr ⟨(st, us), statementFront_of_reads hls hreads, ?_⟩
    exact bind_eq_ok.mpr ⟨(), finish_eq_ok.mpr hus, rfl⟩

end TableAlgebra.Command
