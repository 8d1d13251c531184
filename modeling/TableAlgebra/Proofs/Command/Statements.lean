import TableAlgebra.Proofs.Command.Numerals
import TableAlgebra.Proofs.Command.Reading

/-!
# What the parser answers

The parser accepts the tokens that the grammar derives. Whatever other tokens there are, it refuses
one of them, or their end, with a fault that is about what stands there.

* `Tokens.Refuses ts e`       the error is a fault at one of the tokens or at their end;
* `failsWith_statement`       the parser fails in no other way;
* `statement_iff_derives`     it accepts just what the grammar derives, and refuses all else;
* `statement_eq_error`        the errors of a command text that are no faults come from numerals
                              that are too long;
* `hasTypes_of_statement`     a definition has a column.
-/

namespace TableAlgebra.Command

/-- The error is a fault of a command text. -/
def IsFault (e : Error) : Prop := ∃ f p, e = .command f p

/-- What a fault of the parser tells of the lexeme at its place. -/
def Fault.IsAbout : Fault → Option Lexeme → Prop
  | .illegal _, _ | .unterminated, _ => False
  | .wanted _, _ => True
  | .unexpected l, found => l = found
  | .unknownOperation w, found | .noOuterForm w, found => found = some (.word w)
  | .arity op, found => ∃ w : Text, found = some (.word w) ∧ w.lower = op.name

/-! ### The front of the tokens -/

namespace Tokens

/-- The lexemes with their places, and the place of the end, where there is none. -/
def places (ts : Tokens) : List (Option Lexeme × Place) :=
  ts.list.map (fun t => (some t.lexeme, t.place)) ++ [(none, ts.stop)]

def Refuses (ts : Tokens) (e : Error) : Prop :=
  ∃ f found p, e = .command f p ∧ (found, p) ∈ ts.places ∧ f.IsAbout found

theorem Refuses.isFault {ts : Tokens} {e : Error} (h : ts.Refuses e) : IsFault e := by
  obtain ⟨f, _, p, rfl, _⟩ := h
  exact ⟨f, p, rfl⟩

theorem next_mem_places (ts : Tokens) : (ts.next?, ts.place) ∈ ts.places := by
  obtain ⟨list, stop⟩ := ts
  cases list <;> exact List.mem_cons_self

theorem mem_places {ts : Tokens} {t : Token} (h : t ∈ ts.list) :
    (some t.lexeme, t.place) ∈ ts.places := List.mem_append_left _ (List.mem_map_of_mem h)

theorem places_subset {ls : List Lexeme} {ts us : Tokens} (h : Reads ls ts us) :
    us.places ⊆ ts.places := by
  obtain ⟨taken, _, rfl⟩ := h
  intro x hx
  show x ∈ List.map _ (taken ++ us.list) ++ _
  rw [List.map_append, List.append_assoc]
  exact List.mem_append_right _ hx

/-- What is refused after some lexemes is refused among them all. -/
theorem Reads.failsWith {α : Type} {ls : List Lexeme} {ts us : Tokens} (h : Reads ls ts us)
    {x : Except Error α} (hx : FailsWith us.Refuses x) : FailsWith ts.Refuses x := by
  intro e he
  obtain ⟨f, found, p, rfl, hmem, habout⟩ := hx e he
  exact ⟨f, found, p, rfl, places_subset h hmem, habout⟩

theorem failsWith_refuse {α : Type} {ts : Tokens} {f : Fault} (h : f.IsAbout ts.next?) :
    FailsWith ts.Refuses (ts.refuse f : Except Error α) :=
  failsWith_error ⟨f, ts.next?, ts.place, rfl, ts.next_mem_places, h⟩

theorem failsWith_symbol (ts : Tokens) (s : Symbol) : FailsWith ts.Refuses (ts.symbol s) := by
  unfold symbol
  split
  · exact failsWith_ok _
  · exact failsWith_refuse trivial

theorem failsWith_keyword (ts : Tokens) (k : Keyword) : FailsWith ts.Refuses (ts.keyword k) := by
  unfold keyword
  split
  · exact failsWith_ok _
  · exact failsWith_refuse trivial

theorem failsWith_word (ts : Tokens) (what : Wanted) : FailsWith ts.Refuses (ts.word what) := by
  unfold word
  split
  · exact failsWith_ok _
  · exact failsWith_refuse trivial

theorem failsWith_path (ts : Tokens) : FailsWith ts.Refuses ts.path := by
  unfold path
  split
  · exact failsWith_ok _
  · exact failsWith_refuse trivial

theorem failsWith_column (ts : Tokens) : FailsWith ts.Refuses ts.column := by
  unfold column
  split
  · exact failsWith_ok _
  · exact failsWith_refuse trivial

theorem exists_reads_of_keyword? {ts us : Tokens} {k : Keyword} {found : Bool}
    (h : ts.keyword? k = (found, us)) : ∃ ls, Reads ls ts us := by
  have hkey := keyword?_eq h
  cases found with
  | false => exact ⟨[], reads_nil.mpr hkey.symm⟩
  | true =>
    obtain ⟨w, hw⟩ := hkey
    exact ⟨_, hw⟩

/-! ### One reader after another -/

section
variable {α : Type} {ts : Tokens}

theorem failsWith_symbol_bind {s : Symbol} {f : Tokens → Except Error α}
    (hf : ∀ us, FailsWith us.Refuses (f us)) : FailsWith ts.Refuses (ts.symbol s >>= f) :=
  (failsWith_symbol ts s).bind fun us h => (symbol_eq_ok.mp h).failsWith (hf us)

theorem failsWith_keyword_bind {k : Keyword} {f : Tokens → Except Error α}
    (hf : ∀ us, FailsWith us.Refuses (f us)) : FailsWith ts.Refuses (ts.keyword k >>= f) :=
  (failsWith_keyword ts k).bind fun us h => by
    obtain ⟨w, hw⟩ := keyword_eq_ok.mp h
    exact hw.failsWith (hf us)

theorem failsWith_word_bind {what : Wanted} {f : Text × Tokens → Except Error α}
    (hf : ∀ w us, FailsWith us.Refuses (f (w, us))) : FailsWith ts.Refuses (ts.word what >>= f) :=
  (failsWith_word ts what).bind fun (w, us) h => (word_eq_ok.mp h).failsWith (hf w us)

theorem failsWith_path_bind {f : Text × Tokens → Except Error α}
    (hf : ∀ v us, FailsWith us.Refuses (f (v, us))) : FailsWith ts.Refuses (ts.path >>= f) :=
  (failsWith_path ts).bind fun (v, us) h => by
    obtain ⟨l, _, hl⟩ := path_eq_ok.mp h
    exact hl.failsWith (hf v us)

theorem failsWith_column_bind {f : ColumnRef × Tokens → Except Error α}
    (hf : ∀ c us, FailsWith us.Refuses (f (c, us))) : FailsWith ts.Refuses (ts.column >>= f) :=
  (failsWith_column ts).bind fun (c, us) h => by
    obtain ⟨l, _, hl⟩ := column_eq_ok.mp h
    exact hl.failsWith (hf c us)

theorem failsWith_tableColumn_bind {f : (Text × ColumnRef) × Tokens → Except Error α}
    (hf : ∀ c us, FailsWith us.Refuses (f (c, us))) :
    FailsWith ts.Refuses (ts.tableColumn >>= f) := by
  refine FailsWith.bind ?_ fun ((t, c), us) h => ?_
  · exact failsWith_word_bind fun _ _ => failsWith_symbol_bind fun _ =>
      failsWith_column_bind fun _ _ => failsWith_symbol_bind fun _ => failsWith_ok _
  · obtain ⟨l, _, hl⟩ := tableColumn_eq_ok.mp h
    exact hl.failsWith (hf (t, c) us)

end

end Tokens

/-! ### Type tags and arguments -/

theorem failsWith_typeTags (stop : Place) (list : List Token) :
    FailsWith (Tokens.Refuses ⟨list, stop⟩) (typeTags stop list) := by
  have cons : ∀ {t : Token} {list : List Token} {x : Except Error (List Text × Tokens)},
      FailsWith (Tokens.Refuses ⟨list, stop⟩) x → FailsWith (Tokens.Refuses ⟨t :: list, stop⟩) x :=
    fun {t list x} hx => ((Tokens.reads_nil.mpr rfl).cons t).failsWith hx
  fun_induction typeTags stop list with
  | case1 => exact Tokens.failsWith_refuse (f := .wanted .typeTag) trivial
  | case2 => exact failsWith_ok _
  | case3 _ _ _ _ ih => exact cons (cons ih.map)
  | case4 _ _ _ _ ih => exact cons ih.map
  | case5 => exact Tokens.failsWith_refuse (f := .wanted .typeTag) trivial

theorem failsWith_argumentList (stop : Place) (list : List Token) :
    FailsWith (Tokens.Refuses ⟨list, stop⟩) (argumentList stop list) := by
  have cons : ∀ {t : Token} {list : List Token} {x : Except Error (List Token × Tokens)},
      FailsWith (Tokens.Refuses ⟨list, stop⟩) x → FailsWith (Tokens.Refuses ⟨t :: list, stop⟩) x :=
    fun {t list x} hx => ((Tokens.reads_nil.mpr rfl).cons t).failsWith hx
  fun_induction argumentList stop list with
  | case1 => exact Tokens.failsWith_refuse (f := .unexpected none) rfl
  | case2 => exact failsWith_ok _
  | case3 t => exact Tokens.failsWith_refuse (f := .unexpected (some t.lexeme)) rfl
  | case4 _ _ _ _ _ ih => exact cons (cons ih.map)
  | case5 => exact failsWith_ok _
  | case6 t => exact Tokens.failsWith_refuse (f := .unexpected (some t.lexeme)) rfl

theorem failsWith_arguments (ts : Tokens) : FailsWith ts.Refuses (arguments ts) := by
  unfold arguments
  split
  · exact failsWith_ok _
  · exact failsWith_argumentList _ _

theorem subset_of_argumentList {stop : Place} {list args : List Token} {us : Tokens}
    (h : argumentList stop list = .ok (args, us)) : args ⊆ list := by
  fun_induction argumentList stop list generalizing args us with
  | case1 => cases h
  | case2 t => cases h; exact fun _ hm => hm
  | case3 => cases h
  | case4 t u ts _ _ ih =>
    obtain ⟨⟨args', us'⟩, h', e⟩ := map_eq_ok.mp h
    cases e
    exact List.cons_subset_cons t (List.subset_cons_of_subset u (ih h'))
  | case5 t u ts =>
    cases h
    exact List.cons_subset_cons t (List.nil_subset _)
  | case6 => cases h

theorem subset_of_arguments {ts us : Tokens} {args : List Token}
    (h : arguments ts = .ok (args, us)) : args ⊆ ts.list := by
  unfold arguments at h
  split at h
  · cases h
    exact List.nil_subset _
  · exact subset_of_argumentList h

/-! ### Operations -/

/-- A fault of one of the tokens. -/
def FaultIn (ts : List Token) (e : Error) : Prop :=
  ∃ f, ∃ t ∈ ts, e = .command f t.place ∧ f.IsAbout (some t.lexeme)

theorem Token.failsWith_want {α : Type} {t : Token} {ts : List Token} (ht : t ∈ ts)
    (role : Lexeme → Option α) (what : Wanted) : FailsWith (FaultIn ts) (t.want role what) := by
  unfold want
  split
  · exact failsWith_ok _
  · exact failsWith_error ⟨.wanted what, t, ht, rfl, trivial⟩

/-- The name of the operation is the first of the tokens. -/
theorem Operator.failsWith_apply {op : Operator} {w : Text} (hname : w.lower = op.name)
    (outer : Bool) (p : Place) (args : List Token) :
    FailsWith (FaultIn (⟨.word w, p⟩ :: args)) (op.apply outer p args) := by
  have want : ∀ {α : Type} {t : Token} (role : Lexeme → Option α) (what : Wanted), t ∈ args →
      FailsWith (FaultIn (⟨.word w, p⟩ :: args)) (t.want role what) :=
    fun role what ht => Token.failsWith_want (List.mem_cons_of_mem _ ht) role what
  have columns : ∀ {ts : List Token}, ts ⊆ args →
      FailsWith (FaultIn (⟨.word w, p⟩ :: args)) (ts.mapM Token.column) :=
    fun hts => FailsWith.mapM fun t ht => want _ _ (hts ht)
  have arity : FailsWith (FaultIn (⟨.word w, p⟩ :: args))
      (.error (.command (.arity op) p) : Except Error Operation) :=
    failsWith_error ⟨_, _, List.mem_cons_self, rfl, w, rfl, hname⟩
  unfold apply
  split
  · exact (want _ _ (by simp)).bind fun _ _ => (want _ _ (by simp)).bind fun _ _ =>
      (want _ _ (by simp)).bind fun _ _ => (want _ _ (by simp)).bind fun _ _ => failsWith_ok _
  · exact (want _ _ (by simp)).bind fun _ _ => (columns (by simp)).bind fun _ _ => failsWith_ok _
  · exact (want _ _ (by simp)).bind fun _ _ => (want _ _ (by simp)).bind fun _ _ => failsWith_ok _
  · split
    · exact (columns (by simp)).bind fun _ _ => (want _ _ (by simp)).bind fun _ _ =>
        (want _ _ (by simp)).bind fun _ _ => failsWith_ok _
    · exact arity
  · exact (want _ _ (by simp)).bind fun _ _ => (want _ _ (by simp)).bind fun _ _ => failsWith_ok _
  · exact (want _ _ (by simp)).bind fun _ _ => (want _ _ (by simp)).bind fun _ _ => failsWith_ok _
  · exact arity

theorem failsWith_operation (ts : Tokens) : FailsWith ts.Refuses (operation ts) := by
  unfold operation
  cases hk : ts.keyword? .outer with
  | mk outer ts₁ =>
    obtain ⟨ls, hls⟩ := Tokens.exists_reads_of_keyword? hk
    refine hls.failsWith ((Tokens.failsWith_word _ _).bind fun (w, ts₂) hw => ?_)
    dsimp only
    have hw := Tokens.word_eq_ok.mp hw
    have hnext := (Tokens.reads_singleton.mp hw).1
    have hmem := hnext ▸ ts₁.next_mem_places
    split
    · exact failsWith_error ⟨_, _, _, rfl, hmem, rfl⟩
    · next op hop =>
      split
      · exact failsWith_error ⟨_, _, _, rfl, hmem, rfl⟩
      · refine (hw.failsWith (Tokens.failsWith_symbol ts₂ _)).bind fun ts₃ hl => ?_
        have hl := hw.trans (Tokens.symbol_eq_ok.mp hl)
        refine (hl.failsWith (failsWith_arguments ts₃)).bind fun (args, ts₄) hargs => ?_
        have hr := hl.trans (reads_of_arguments hargs)
        refine (hr.failsWith (Tokens.failsWith_symbol ts₄ _)).bind fun _ _ => ?_
        refine FailsWith.bind (fun e he => ?_) fun _ _ => failsWith_ok _
        have hname := Operator.ofWord?_eq_some.mp hop
        obtain ⟨f, t, ht, rfl, habout⟩ := Operator.failsWith_apply hname outer ts₁.place args e he
        rcases List.mem_cons.mp ht with rfl | ht
        · exact ⟨f, _, _, rfl, hmem, habout⟩
        · have hthere := Tokens.mem_places (subset_of_arguments hargs ht)
          exact ⟨f, _, _, rfl, Tokens.places_subset hl hthere, habout⟩

/-! ### Statements -/

theorem failsWith_keywordStatement {k : Keyword} {ts : Tokens}
    {x : Except Error (Statement × Tokens)} (h : keywordStatement k ts = some x) :
    FailsWith ts.Refuses x := by
  unfold keywordStatement at h
  split at h
  · cases h
    refine Tokens.failsWith_word_bind fun t us => Tokens.failsWith_symbol_bind fun us => ?_
    refine (failsWith_typeTags _ _).bind fun (types, vs) htypes => ?_
    obtain ⟨ls, _, hls⟩ := reads_of_typeTags htypes
    refine hls.failsWith ?_
    dsimp only
    split
    · exact Tokens.failsWith_refuse trivial
    · exact failsWith_ok _
  · cases h
    cases hk : ts.keyword? .headed with
    | mk headed us =>
      obtain ⟨ls, hls⟩ := Tokens.exists_reads_of_keyword? hk
      exact hls.failsWith <| Tokens.failsWith_word_bind fun _ _ =>
        Tokens.failsWith_keyword_bind fun _ => Tokens.failsWith_path_bind fun _ _ => failsWith_ok _
  · cases h
    exact Tokens.failsWith_word_bind fun _ _ => Tokens.failsWith_path_bind fun _ _ => failsWith_ok _
  · cases h
    exact Tokens.failsWith_word_bind fun _ _ => failsWith_ok _
  · cases h
    exact Tokens.failsWith_tableColumn_bind fun _ _ => Tokens.failsWith_keyword_bind fun _ =>
      Tokens.failsWith_tableColumn_bind fun _ _ => failsWith_ok _
  · cases h
    exact Tokens.failsWith_word_bind fun _ _ => failsWith_ok _
  · cases h
    exact failsWith_ok _
  · cases h
    exact failsWith_ok _
  · cases h

theorem failsWith_statementFront (ts : Tokens) : FailsWith ts.Refuses (statementFront ts) := by
  unfold statementFront
  split
  · next k w hk =>
    have hreads : Tokens.Reads [.keyword k w] ts ts.drop := Tokens.reads_singleton.mpr ⟨hk, rfl⟩
    split
    · next h => exact hreads.failsWith (failsWith_keywordStatement h)
    · exact Tokens.failsWith_refuse rfl
  · next t ht =>
    have hreads : Tokens.Reads [.word t] ts ts.drop := Tokens.reads_singleton.mpr ⟨ht, rfl⟩
    refine hreads.failsWith (Tokens.failsWith_symbol_bind fun us => ?_)
    exact (failsWith_operation us).bind fun _ _ => failsWith_ok _
  · next found _ _ => exact Tokens.failsWith_refuse rfl

theorem failsWith_finish (ts : Tokens) : FailsWith ts.Refuses (finish ts) := by
  have front : ∀ us : Tokens, FailsWith us.Refuses
      (if us.list.isEmpty then .ok () else us.refuse (.unexpected us.next?) :
        Except Error Unit) := by
    intro us
    split
    · exact failsWith_ok _
    · exact Tokens.failsWith_refuse rfl
  unfold finish
  split
  · next h =>
    have hreads : Tokens.Reads [.symbol .semicolon] ts ts.drop :=
      Tokens.reads_singleton.mpr ⟨h, rfl⟩
    exact hreads.failsWith (front ts.drop)
  · exact front ts

theorem Tokens.failsWith_statement (ts : Tokens) : FailsWith ts.Refuses ts.statement := by
  refine (failsWith_statementFront ts).bind fun (st, us) h => ?_
  obtain ⟨ls, _, hreads⟩ := reads_of_statementFront h
  exact hreads.failsWith ((failsWith_finish us).bind fun _ _ => failsWith_ok _)

/-- The parser accepts what the grammar derives, with a semicolon after it or not. Of any other
tokens it refuses one, or their end. -/
theorem Tokens.statement_iff_derives (ts : Tokens) :
    (∀ st, ts.statement = .ok st ↔ ∃ ls, Derives ls st ∧
      (ts.lexemes = ls ∨ ts.lexemes = ls ++ [.symbol .semicolon])) ∧
    ((∃ st, ts.statement = .ok st) ∨ ∃ fault found place,
      ts.statement = .error (.command fault place) ∧ (found, place) ∈ ts.places ∧
        fault.IsAbout found) := by
  refine ⟨fun st => statement_eq_ok, ?_⟩
  cases h : ts.statement with
  | ok st => exact Or.inl ⟨st, rfl⟩
  | error e =>
    obtain ⟨fault, found, place, rfl, hmem, habout⟩ := ts.failsWith_statement e h
    exact Or.inr ⟨fault, found, place, rfl, hmem, habout⟩

theorem statement_eq_tooManyDigits {text : Text} {n : Nat} :
    statement text = .error (.tooManyDigits n) ↔ HasLongNumeral n text := by
  rw [← tokens_eq_tooManyDigits]
  constructor
  · intro h
    rcases bind_eq_error.mp h with h | ⟨ts, _, h⟩
    · exact h
    · obtain ⟨_, _, hf⟩ := (ts.failsWith_statement _ h).isFault
      cases hf
  · intro h
    exact bind_eq_error.mpr (Or.inl h)

theorem statement_eq_error {text : Text} {e : Error} (h : statement text = .error e) :
    IsFault e ∨ ∃ n, HasLongNumeral n text ∧ e = .tooManyDigits n := by
  rcases bind_eq_error.mp h with h | ⟨ts, _, h⟩
  · exact tokensFrom_eq_error h
  · exact Or.inl (ts.failsWith_statement _ h).isFault

/-! ### Definitions -/

/-- A statement that defines a table has a type tag. -/
def Statement.HasTypes : Statement → Prop
  | .define _ types => types ≠ []
  | _ => True

theorem hasTypes_of_statement {text : Text} {st : Statement} (h : statement text = .ok st) :
    st.HasTypes := by
  obtain ⟨ts, _, h⟩ := bind_eq_ok.mp h
  obtain ⟨ls, hls, _⟩ := Tokens.statement_eq_ok.mp h
  cases hls with
  | define k t tags => cases tags <;> exact List.cons_ne_nil _ _
  | _ => trivial

end TableAlgebra.Command
