import TableAlgebra.Proofs.Command.Written
import TableAlgebra.Proofs.Session.Script

/-!
# The names of tables

Commands bind tables to bare words only, so every table of a reachable session can be named in a
command again: a word holds no blank and no line boundary.

* `Reachable.isBareWord`   what a reachable session binds is a bare word;
* `isWordPart_of_isBareWord`, `not_isLineBreak_of_isWordPart`   what such a name is made of.
-/

namespace TableAlgebra

namespace Command

theorem isWordPart_of_isBareWord {w : Text} (h : IsBareWord w) : ∀ c ∈ w, isWordPart c = true := by
  obtain ⟨hword, -, -⟩ := h
  cases w with
  | nil => cases hword
  | cons c cs =>
    obtain ⟨hc, hcs⟩ := Bool.and_eq_true_iff.mp hword
    exact List.forall_mem_cons.mpr ⟨isWordPart_of_startsWord hc, List.all_eq_true.mp hcs⟩

/-- A line boundary is a blank, and no blank is in a word. -/
theorem not_isLineBreak_of_isWordPart {c : Text.Point} (h : isWordPart c = true) :
    Text.isLineBreak c = false := by
  have hblank : ∀ p ∈ Text.lineBreaks, Text.isBlank p = true := by decide +kernel
  refine Bool.eq_false_iff.mpr fun hbreak => ?_
  have hc := hblank c (List.contains_iff_mem.mp hbreak)
  exact Bool.false_ne_true ((not_isBlank_of_isWordPart h).symm.trans hc)

end Command

namespace Session

open Command (IsBareWord Statement)

/-- The names of the tables are bare words. -/
def HasBareNames (s : Session) : Prop := ∀ ⦃name t⦄, s.table name = .ok t → IsBareWord name

section
variable {s : Session} (h : s.HasBareNames)
include h

theorem HasBareNames.store {name : Text} (hname : IsBareWord name) (t : Table) :
    (s.store name t).HasBareNames := by
  intro m u hu
  rcases eq_or_table_of_store hu with ⟨rfl, -⟩ | hu
  · exact hname
  · exact h hu

theorem HasBareNames.remove (name : Text) : (s.remove name).HasBareNames :=
  fun _ _ hu => h (table_of_remove hu)

/-- What a statement binds it names, and what it names is a bare word. -/
theorem Effect.hasBareNames {st : Statement} {s' : Session} (he : Effect s st s')
    (hst : st.IsWritable) : s'.HasBareNames := by
  cases he with
  | define known => exact h.store hst.1 _
  | load bound opened read => exact h.store hst.1 _
  | save saved =>
    obtain ⟨_, _, _, _, _, _, hs⟩ := save_eq_ok.mp saved
    rw [hs]
    exact h
  | print | check | exit => exact h
  | remove name => exact h.remove name
  | clear => exact fun _ _ hu => nomatch hu
  | store result rows => exact h.store hst.1 _
  | drop result rows => exact h.remove _

theorem HasBareNames.execute (command : Text) : (s.execute command).2.HasBareNames := by
  cases hx : s.execute command with
  | mk outcome s' =>
    cases outcome with
    | error e =>
      rw [execute_error_eq hx]
      exact h
    | ok reply =>
      cases hst : Command.statement command with
      | error e =>
        rw [execute_of_error hst] at hx
        cases hx
      | ok st =>
        rw [execute_of_ok hst] at hx
        exact (effect_of_run hx).hasBareNames h (Command.isWritable_of_statement hst)

end

theorem Reachable.isBareWord {s : Session} (h : s.Reachable) {name : Text} {t : Table}
    (bound : s.table name = .ok t) : IsBareWord name := by
  have hnames : s.HasBareNames := by
    clear bound
    induction h with
    | start => exact fun _ _ hu => nomatch hu
    | execute _ command ih => exact ih.execute command
    | change _ _ ih => exact ih
  exact hnames bound

end Session

end TableAlgebra
