import JadeEditor.Proofs.Cli.Ending
import JadeEditor.Proofs.Files.Replacement

/-!
# What commands touch

The only command that changes a file is the one that indents it, when it is to write and not
only to check, and all that it changes is the content of the file it was given, as far as the
file system lets it. A run ends with exit code 1 if the command raised something or a check
found lines that differ, else with 0.
-/

namespace JadeEditor.Cli

set_option autoImplicit false

open Terminal

section Frame

variable {fs : FileSystem} {i : Invocation} {e : Ending} {u : Text}

theorem Course.write_eq_some_iff (h : Course fs i e) (path u : Text) :
    e.write = some (path, u) ↔ path = i.file ∧ i.Rewrites fs u := by
  cases h with
  | unsettled hunsettled =>
    exact iff_of_false nofun fun hwrites => hwrites.2.free.1 hunsettled
  | obstructed _ hobstructed =>
    exact iff_of_false nofun fun hwrites => hwrites.2.free.2 hobstructed
  | rejected hrewrites _ =>
    constructor
    · intro hsome
      cases hsome
      exact ⟨rfl, hrewrites⟩
    · rintro ⟨rfl, hrewrites'⟩
      rw [hrewrites.unique hrewrites']
      rfl
  | @indented m more output v check write changed hindents _ =>
    constructor
    · intro hsome
      by_cases hwrites : check = false ∧ write = true
      · obtain ⟨rfl, rfl⟩ := hwrites
        cases hsome
        exact ⟨rfl, changed, hindents⟩
      · cases (if_neg hwrites).symm.trans hsome
    · rintro ⟨rfl, changed', hrewrites⟩
      obtain ⟨rfl, rfl, rfl, -⟩ := hindents.unique hrewrites
      rfl
  | shown _ _ hcommand =>
    refine iff_of_false nofun ?_
    rintro ⟨_, changed, hrewrites⟩
    exact hcommand _ _ hrewrites.command

end Frame

/-! ## What a report says -/

/-- The report of a command says what the way it took does. -/
theorem execute_follows (fs : FileSystem) (palette : Palette) (i : Invocation) :
    ∃ e, Course fs i e ∧ body fs (i.style palette) i {} = e.result i.options.verbose
      ∧ (i.execute fs palette).exitCode = e.exitCode ∧ (i.execute fs palette).write = e.write := by
  obtain ⟨e, hcourse, hends⟩ := body_follows fs palette i.options.json i
  obtain ⟨-, hexit, hwrite⟩ := run_of_ends hends palette i.options.verbose i.options.json
  refine ⟨e, hcourse, ?_, hexit, hwrite⟩
  rw [← hends i.options.verbose, Report.logged_nil]
  rfl

theorem write_execute_eq_some_iff (fs : FileSystem) (palette : Palette) (i : Invocation)
    (path u : Text) :
    (i.execute fs palette).write = some (path, u) ↔ path = i.file ∧ i.Rewrites fs u := by
  obtain ⟨e, hcourse, -, -, hwrite⟩ := execute_follows fs palette i
  rw [hwrite]
  exact hcourse.write_eq_some_iff path u

/-- What a command hands over does not depend on what comes of it. So it can be found out by a
run in which every write goes well, and the write be made before the command is run again. -/
theorem write_execute_of_same_entries (fs : FileSystem)
    (writeProblem? : Text → Utf8.Bytes → Option WriteProblem) (palette : Palette)
    (i : Invocation) :
    (i.execute { fs with writeProblem? } palette).write = (i.execute fs palette).write := by
  have hloads (t : Text) (s : Settings) : Loads { fs with writeProblem? } i t s ↔ Loads fs i t s :=
    ⟨fun h => ⟨h.settings, h.supported, h.text⟩, fun h => ⟨h.settings, h.supported, h.text⟩⟩
  have hrewrites (u : Text) : i.Rewrites { fs with writeProblem? } u ↔ i.Rewrites fs u := by
    constructor
    · rintro ⟨changed, hcommand, t, s, hload, hindented⟩
      exact ⟨changed, hcommand, t, s, (hloads t s).mp hload, hindented⟩
    · rintro ⟨changed, hcommand, t, s, hload, hindented⟩
      exact ⟨changed, hcommand, t, s, (hloads t s).mpr hload, hindented⟩
  apply Option.ext
  rintro ⟨path, u⟩
  rw [write_execute_eq_some_iff, write_execute_eq_some_iff, hrewrites]

/-! ## The files afterwards -/

end JadeEditor.Cli
