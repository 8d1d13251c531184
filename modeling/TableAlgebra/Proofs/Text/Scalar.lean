import TableAlgebra.Text.Utf8

/-!
# Texts without surrogates

A text that holds no surrogate is the text of a string. Such texts can be encoded, and come back
from their bytes; what is decoded is always such a text.

* `exists_ofString`      a text without surrogates is the text of a string;
* `string?_eq_some`      it is the text of that string alone;
* `decode_of_encode`     encoding and decoding gives the text back;
* `isScalar_of_decode`   decoded text holds no surrogate.
-/

namespace TableAlgebra.Text

/-- No surrogate is in the text. -/
def IsScalar (t : Text) : Prop := ∀ p ∈ t, p.isSurrogate = false

theorem isScalar_ofString (s : String) : IsScalar (ofString s) := by
  intro p hp
  obtain ⟨c, _, rfl⟩ := List.mem_map.mp hp
  rfl

theorem exists_map_char {t : Text} (h : IsScalar t) : ∃ cs : List Char, t = cs.map .char := by
  induction t with
  | nil => exact ⟨[], rfl⟩
  | cons p t ih =>
    obtain ⟨cs, rfl⟩ := ih fun q hq => h q (List.mem_cons_of_mem _ hq)
    cases p with
    | char c => exact ⟨c :: cs, rfl⟩
    | surrogate n =>
      have hn := h _ List.mem_cons_self
      cases hn

theorem exists_ofString {t : Text} (h : IsScalar t) : ∃ s : String, t = ofString s := by
  obtain ⟨cs, rfl⟩ := exists_map_char h
  exact ⟨String.ofList cs, by rw [ofString, String.toList_ofList]⟩

theorem string?_eq_some {t : Text} {s : String} : t.string? = some s ↔ t = ofString s := by
  constructor
  · intro h
    have hscalar : IsScalar t := by
      intro p hp
      obtain ⟨cs, hcs, -⟩ := Option.map_eq_some_iff.mp h
      cases p with
      | char c => rfl
      | surrogate n =>
        obtain ⟨before, after, rfl⟩ := List.append_of_mem hp
        rw [List.mapM_append] at hcs
        simp [Point.char?] at hcs
    obtain ⟨u, rfl⟩ := exists_ofString hscalar
    rw [string?_ofString] at h
    rw [Option.some.inj h]
  · rintro rfl
    exact string?_ofString s

namespace Utf8

theorem decode_of_encode {t : Text} (h : IsScalar t) :
    ∃ bytes, encode t = .ok bytes ∧ decode bytes = .ok t := by
  obtain ⟨s, rfl⟩ := exists_ofString h
  exact ⟨s.toUTF8, encode_ofString s, decode_toUTF8 s⟩

theorem isScalar_of_decode {bytes : ByteArray} {t : Text} (h : decode bytes = .ok t) :
    IsScalar t := by
  rw [decode] at h
  split at h
  · cases h
    exact isScalar_ofString _
  · cases h

end Utf8

end TableAlgebra.Text
