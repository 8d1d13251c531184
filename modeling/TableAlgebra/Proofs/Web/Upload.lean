import TableAlgebra.Proofs.Session.Effect
import TableAlgebra.Proofs.Storage.Kept
import TableAlgebra.Web

/-!
# Uploading and loading

A table is replaced by a request body or by a file of the same text. The body is cut into lines as
a script is, at every kind of line boundary; the file is cut at line feeds and carriage returns. So
both replace the table by the same one, or both fail, as long as the body has no other line
boundary. With one, an upload and a load that both replace the table do so by different ones: the
file keeps the boundary in a name or a text, the body does not.

* `respond_load`          an upload replaces the table by the lines of its body, or changes nothing;
* `load_of_read`          a load does so by the lines of the file;
* `loadFeed_bodyFeed`, `ne_of_isSoftBreak`   when the lines are as good as the same, and when not;
* `agree_of_not_isSoftBreak`, `Agree.bothFail`   so the upload and the load do the same, or they do
                          so in failing only;
* `upload_agrees_iff`     when an upload and a load do the same.
-/

namespace TableAlgebra.Web

open Storage (Feed)
open Text (IsSoftBreak)

/-! ### Uploads and loads -/

theorem status_loadRefusal (e : Error) : (loadRefusal e).status ≠ 200 := by
  have hmissing : (404 : Nat) ≠ 200 := by decide
  have hrefused : (400 : Nat) ≠ 200 := by decide
  have hbroken : (500 : Nat) ≠ 200 := by decide
  unfold loadRefusal
  split
  · exact hmissing
  · split
    · exact hrefused
    · exact hbroken

def bodyFeed (body : Text) : Feed := { lines := body.splitLines }

section
variable (s : Session) (name : Text) (headed : Option Text) (body : Text)

theorem respond_load :
    (∃ t s', s.loadFeed (isHeaded headed) name (.ok (bodyFeed body)) = .ok (t, s') ∧
      (respond s (.load name headed body)).1.status = 200 ∧
      (respond s (.load name headed body)).2 = s') ∨
    ((∃ e, s.loadFeed (isHeaded headed) name (.ok (bodyFeed body)) = .error e) ∧
      (respond s (.load name headed body)).1.status ≠ 200 ∧
      (respond s (.load name headed body)).2 = s) := by
  unfold respond bodyFeed
  dsimp only
  cases s.loadFeed (isHeaded headed) name (.ok { lines := body.splitLines }) with
  | ok r => exact Or.inl ⟨r.1, r.2, rfl, rfl, rfl⟩
  | error e => exact Or.inr ⟨⟨e, rfl⟩, status_loadRefusal e, rfl⟩

/-- The upload replaces the table just if the load does, and then by the same one. -/
def Agree (path : Text) : Prop :=
  match s.load (isHeaded headed) name path with
  | .ok (_, s') => (respond s (.load name headed body)).1.status = 200 ∧
      (respond s (.load name headed body)).2 = s'
  | .error _ => (respond s (.load name headed body)).1.status ≠ 200 ∧
      (respond s (.load name headed body)).2 = s

/-- Neither the upload nor the load replaces the table. -/
def BothFail (path : Text) : Prop :=
  (respond s (.load name headed body)).1.status ≠ 200 ∧
    ∃ e, s.load (isHeaded headed) name path = .error e

end

theorem load_of_read {s : Session} {path file body : Text} {bytes : ByteArray}
    (located : s.fileOf path = .ok file) (stored : s.files.read file = .ok bytes)
    (decoded : Text.Utf8.decode bytes = .ok body) (headed : Bool) (name : Text) :
    s.load headed name path = s.loadFeed headed name (.ok ⟨Feed.linesOf body, none⟩) := by
  have hfeed : Feed.ofPath s.files s.dataDir path = .ok ⟨Feed.linesOf body, none⟩ := by
    refine map_eq_ok.mpr ⟨file, located, ?_⟩
    rw [stored]
    dsimp only
    rw [Feed.ofBytes, decoded]
  rw [Session.load, hfeed]

/-! ### The lines of both -/

theorem loadFeed_bodyFeed {body : Text} (h : ∀ p ∈ body, ¬IsSoftBreak p) (s : Session)
    (headed : Bool) (name : Text) :
    s.loadFeed headed name (.ok ⟨Feed.linesOf body, none⟩) =
      s.loadFeed headed name (.ok (bodyFeed body)) := by
  have hlines := (Storage.Record.map_stripLineEnd_splitLines h).symm
  unfold Session.loadFeed
  cases s.table name with
  | error e => rfl
  | ok t =>
    show ((Feed.readTable ⟨Feed.linesOf body, none⟩ name t.schema headed).mapError _ >>= _) = _
    rw [Feed.readTable_congr hlines]
    rfl

/-- The boundary stays in the table that is loaded, and is not in the one that is uploaded. -/
theorem ne_of_isSoftBreak {body : Text} {p : Text.Point} (soft : IsSoftBreak p) (hp : p ∈ body)
    {s s₁ s₂ : Session} {headed : Bool} {name : Text} {t u : Table}
    (loaded : s.loadFeed headed name (.ok ⟨Feed.linesOf body, none⟩) = .ok (t, s₁))
    (uploaded : s.loadFeed headed name (.ok (bodyFeed body)) = .ok (u, s₂)) : t ≠ u := by
  obtain ⟨v, feed, hv, hfeed, ht, -⟩ := Session.loadFeed_eq_ok.mp loaded
  obtain ⟨v', feed', hv', hfeed', hu, -⟩ := Session.loadFeed_eq_ok.mp uploaded
  cases hfeed
  cases hfeed'
  have hline : ∃ line ∈ Feed.linesOf body, p ∈ line := by
    have hmem := Text.mem_unifyLineEnds_of_mem soft.2.1 soft.2.2 hp
    rw [← Text.flatten_textLines body.unifyLineEnds] at hmem
    exact List.mem_flatten.mp hmem
  have hwritten : p ∈ t.written := (Feed.mem_written_of_readTable soft ht).mpr hline
  rintro rfl
  obtain ⟨line, hl, hpl⟩ := (Feed.mem_written_of_readTable soft hu).mp hwritten
  exact Bool.false_ne_true ((Text.mem_splitLines hl p hpl).1.symm.trans soft.1)

/-! ### Agreement -/

theorem BothFail.agree {s : Session} {name path body : Text} {headed : Option Text}
    (h : BothFail s name headed body path) : Agree s name headed body path := by
  obtain ⟨hstatus, e, he⟩ := h
  rw [Agree, he]
  rcases respond_load s name headed body with ⟨-, -, -, hok, -⟩ | ⟨-, -, hs⟩
  · exact absurd hok hstatus
  · exact ⟨hstatus, hs⟩

section
variable {s : Session} {path file body : Text} {bytes : ByteArray}
  (located : s.fileOf path = .ok file) (stored : s.files.read file = .ok bytes)
  (decoded : Text.Utf8.decode bytes = .ok body)
include located stored decoded

theorem agree_of_not_isSoftBreak (h : ∀ p ∈ body, ¬IsSoftBreak p) (name : Text)
    (headed : Option Text) : Agree s name headed body path := by
  rw [Agree, load_of_read located stored decoded, loadFeed_bodyFeed h]
  rcases respond_load s name headed body with ⟨u, s₂, hu, hstatus, hs₂⟩ | ⟨⟨e, he⟩, hstatus, hs⟩
  · rw [hu]
    exact ⟨hstatus, hs₂⟩
  · rw [he]
    exact ⟨hstatus, hs⟩

theorem Agree.bothFail {p : Text.Point} (soft : IsSoftBreak p) (hp : p ∈ body) {name : Text}
    {headed : Option Text} (h : Agree s name headed body path) :
    BothFail s name headed body path := by
  have hload := load_of_read located stored decoded (isHeaded headed) name
  rw [Agree, hload] at h
  rw [BothFail, hload]
  cases hx : s.loadFeed (isHeaded headed) name (.ok ⟨Feed.linesOf body, none⟩) with
  | error e =>
    rw [hx] at h
    exact ⟨h.1, e, rfl⟩
  | ok r =>
    rw [hx] at h
    obtain ⟨hstatus, hsession⟩ := h
    rcases respond_load s name headed body with ⟨u, s₂, hu, -, hs₂⟩ | ⟨-, hfail, -⟩
    · obtain ⟨-, -, -, -, -, hloaded⟩ := Session.loadFeed_eq_ok.mp hx
      obtain ⟨-, -, -, -, -, huploaded⟩ := Session.loadFeed_eq_ok.mp hu
      have htable := Session.table_store_self s name r.1
      rw [← hloaded, ← hsession, hs₂, huploaded, Session.table_store_self] at htable
      exact absurd (Except.ok.inj htable).symm (ne_of_isSoftBreak soft hp hx hu)
    · exact absurd hstatus hfail

/-- An upload and a load of the same text do the same, unless the text has a line boundary that
ends no line of a file and one of them succeeds. -/
theorem upload_agrees_iff (name : Text) (headed : Option Text) :
    Agree s name headed body path ↔
      (∀ p ∈ body, ¬IsSoftBreak p) ∨ BothFail s name headed body path := by
  constructor
  · intro h
    by_cases hsoft : ∃ p ∈ body, IsSoftBreak p
    · obtain ⟨p, hp, soft⟩ := hsoft
      exact Or.inr (h.bothFail located stored decoded soft hp)
    · exact Or.inl fun p hp soft => hsoft ⟨p, hp, soft⟩
  · rintro (h | h)
    · exact agree_of_not_isSoftBreak located stored decoded h name headed
    · exact h.agree

end

/-! ### A file and a table of texts -/

namespace Sample

def texts : Table := { schema := [.text] }

def session (content : String) : Session :=
  { tables := Catalog.bind {} "t" texts,
    files := { nodes := [(["b.csv"], .file content.toUTF8)] } }

theorem table_session (content : String) : (session content).table "t" = .ok texts :=
  Session.table_eq_ok.mpr (Catalog.find?_bind_self ..)

theorem fileOf_session (content : String) :
    (session content).fileOf "b.csv" = .ok "./b.csv" := by
  have hpath : "./b.csv".toUTF8.data.contains 0 = false := by decide +kernel
  exact Storage.Path.canonical_ofString hpath

theorem read_session (content : String) :
    (session content).files.read "./b.csv" = .ok content.toUTF8 := rfl

end Sample

theorem upload_agrees_iff_sample :
    (Sample.session "a\r\nb\n").fileOf "b.csv" = .ok "./b.csv" ∧
      (Sample.session "a\r\nb\n").files.read "./b.csv" = .ok "a\r\nb\n".toUTF8 ∧
      Text.Utf8.decode "a\r\nb\n".toUTF8 = .ok "a\r\nb\n" ∧
      Agree (Sample.session "a\r\nb\n") "t" none "a\r\nb\n" "b.csv" := by
  have located := Sample.fileOf_session "a\r\nb\n"
  have stored := Sample.read_session "a\r\nb\n"
  have decoded := Text.Utf8.decode_toUTF8 "a\r\nb\n"
  have hhard : ∀ p ∈ (("a\r\nb\n" : String) : Text), ¬IsSoftBreak p := by decide +kernel
  have hagree := (upload_agrees_iff located stored decoded "t" none).mpr (Or.inl hhard)
  exact ⟨located, stored, decoded, hagree⟩

/-- A vertical tab is part of a field for the file, and ends a line for the upload. -/
theorem not_upload_agrees :
    ¬∀ (s : Session) (name path file body : Text) (t : Table) (bytes : ByteArray)
      (headed : Option Text), s.table name = .ok t → s.fileOf path = .ok file →
      s.files.read file = .ok bytes → Text.Utf8.decode bytes = .ok body →
      Agree s name headed body path := by
  intro h
  have located := Sample.fileOf_session "a\x0bb"
  have stored := Sample.read_session "a\x0bb"
  have decoded := Text.Utf8.decode_toUTF8 "a\x0bb"
  have hagree := h _ "t" "b.csv" "./b.csv" _ _ _ none (Sample.table_session _) located stored
    decoded
  have hload : ((Sample.session "a\x0bb").loadFeed (isHeaded none) "t"
      (.ok ⟨Feed.linesOf "a\x0bb", none⟩)).map (·.1) =
        .ok { Sample.texts with rows := [[.text (some "a\x0bb")]] } := by decide +kernel
  obtain ⟨⟨t, s'⟩, hload, rfl⟩ := map_eq_ok.mp hload
  rw [Agree, load_of_read located stored decoded, hload] at hagree
  obtain ⟨-, -, -, -, -, hs'⟩ := Session.loadFeed_eq_ok.mp hload
  have htable : (respond (Sample.session "a\x0bb") (.load "t" none "a\x0bb")).2.table "t" =
      .ok { Sample.texts with rows := [[.text (some "a")], [.text (some "b")]] } := by
    decide +kernel
  rw [hagree.2, hs', Session.table_store_self] at htable
  exact absurd (Except.ok.inj htable) (by decide +kernel)

end TableAlgebra.Web
