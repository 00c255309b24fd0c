import JadeEditor.Proofs.Indent.Idempotent
import JadeEditor.Proofs.Text.Endings

/-!
# Checking and writing

The check compares the lines of a text with the lines it would get, while writing joins
the new lines with one ending. The two verdicts differ in the line breaks alone: the
text that is written is the given one just when the check passes and the breaks of the
given one are all of a kind.
-/

namespace JadeEditor

set_option autoImplicit false

theorem differences_eq_nil_iff (line : Nat) {ts us : List Text} (h : us.length = ts.length) :
    differences line ts us = [] ↔ us = ts := by
  induction ts generalizing us line with
  | nil => simp [differences, List.length_eq_zero_iff.mp h]
  | cons t ts ih =>
    cases us with
    | nil => cases h
    | cons u us =>
      have hrest := ih (line + 1) (Nat.succ.inj h)
      rw [differences, List.cons.injEq, ← hrest]
      by_cases hsame : u = t
      · simp [hsame]
      · simp [hsame]

/-- Cutting the written text gives the new lines, so no change of a line is hidden by the
ending they are joined with. -/
theorem laidOut_eq_iff (unit : Int) (t : Text) :
    t.laidOut unit = t ↔ layout unit none t.lines = t.lines ∧ ¬ t.MixesEndings := by
  rw [← Text.unlines_detect_iff]
  constructor
  · intro h
    have hlines : layout unit none t.lines = t.lines := by rw [← lines_laidOut, h]
    rw [Text.laidOut, hlines] at h
    exact ⟨hlines, h⟩
  · rintro ⟨hlines, hback⟩
    rw [Text.laidOut, hlines, hback]

/-- For every text, what is written is the text itself just when no line is reported and
the text does not mix line endings; and the check of the command passes just when no
line is reported. -/
theorem check_agrees_with_write (t : Text) (unit : Nat) :
    ∃ (u : Text) (changed : List Nat), t.indented unit = .ok (u, changed)
      ∧ (u = t ↔ changed = [] ∧ ¬ t.MixesEndings)
      ∧ ∀ (fs : FileSystem) (style : Cli.Style) (file : Text) (write : Bool),
        (Cli.run style (Cli.indent fs style file false true ⟨.ofText t, .detect t, unit⟩)).write
            = some (file, u)
          ∧ ((Cli.run style (Cli.indent fs style file true write
            ⟨.ofText t, .detect t, unit⟩)).exitCode = 0 ↔ changed = []) := by
  obtain ⟨s, hrun, htext⟩ := reindent_ofText unit t
  refine ⟨t.laidOut unit, _, indented_eq unit t, ?_, fun fs style file write => ⟨?_, ?_⟩⟩
  · rw [laidOut_eq_iff, differences_eq_nil_iff 0 (length_layout unit none t.lines)]
  · rw [← htext]
    exact Cli.write_indent hrun
  · rw [Cli.exitCode_indent ⟨.ofText t, .detect t, unit⟩ hrun write]
    split
    · rename_i hnone
      exact iff_of_true rfl hnone
    · rename_i hsome
      exact iff_of_false Nat.one_ne_zero hsome

end JadeEditor
