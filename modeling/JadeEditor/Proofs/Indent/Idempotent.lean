import JadeEditor.Proofs.Cli.Printing
import JadeEditor.Proofs.Indent.Reindent
import JadeEditor.Proofs.Text.Lines

/-!
# Indenting twice

Indenting a text cuts it into lines, lays them out and joins them with the ending of
the text. The lines that are laid out are told apart by that ending as well as the
given ones, so the next cut finds just them, and laying them out again changes
nothing: what was written passes the check.
-/

namespace JadeEditor

set_option autoImplicit false

/-! ## Lines -/

theorem layout_layout (unit : Int) (above : Option Text) (ts : List Text) :
    layout unit above (layout unit above ts) = layout unit above ts := by
  induction ts generalizing above with
  | nil => rfl
  | cons t ts ih =>
    by_cases hblank : Line.isBlank t = true
    · simp only [layout, if_pos hblank, ih]
    · simp only [layout, Line.isBlank_indentTo, if_neg hblank, Document.levelUnder_indentTo,
        Line.indentTo_indentTo, ih]

theorem differences_self (line : Nat) (ts : List Text) : differences line ts ts = [] := by
  induction ts generalizing line with
  | nil => rfl
  | cons t ts ih => simp [differences, ih]

theorem unbroken_layout {ts : List Text} (h : Text.Unbroken ts) (unit : Int)
    (above : Option Text) : Text.Unbroken (layout unit above ts) := by
  induction ts generalizing above with
  | nil => exact h
  | cons t ts ih =>
    have ht := h t List.mem_cons_self
    have hts := ih fun l hl => h l (List.mem_cons_of_mem t hl)
    rw [layout]
    split
    · exact List.forall_mem_cons.mpr ⟨ht, hts above⟩
    · exact List.forall_mem_cons.mpr ⟨Line.lineFeed_not_mem_indentTo ht _, hts _⟩

theorem map_getLast?_layout (unit : Int) (above : Option Text) (ts : List Text) :
    (layout unit above ts).map List.getLast? = ts.map List.getLast? := by
  induction ts generalizing above with
  | nil => rfl
  | cons t ts ih =>
    rw [layout]
    split
    · rw [List.map_cons, List.map_cons, ih]
    · rename_i hsolid
      rw [List.map_cons, List.map_cons, ih, Line.getLast?_indentTo hsolid]

theorem fits_layout {ending : LineEnding} {ts : List Text} (h : Text.Fits ending ts) (unit : Int)
    (above : Option Text) : Text.Fits ending (layout unit above ts) := by
  cases ending with
  | crlf =>
    simp only [Text.Fits, length_layout] at h ⊢
    exact h
  | lf =>
    -- Whether a line ends in a carriage return is seen on the last units alone.
    have hlasts : ∀ ls : List Text, Text.Unreturned ls ↔
        ∀ c ∈ (ls.map List.getLast?).dropLast, c ≠ some CodeUnit.carriageReturn := by
      intro ls
      rw [← List.map_dropLast, List.forall_mem_map]
      rfl
    rw [Text.Fits, hlasts] at h ⊢
    rw [map_getLast?_layout]
    exact h

/-! ## Texts -/

/-- The lines of a text, laid out and joined again. -/
def Text.laidOut (unit : Int) (t : Text) : Text :=
  Text.unlines (.detect t) (layout unit none t.lines)

theorem lines_laidOut (unit : Int) (t : Text) :
    (t.laidOut unit).lines = layout unit none t.lines := by
  have hfits := fits_layout (Text.fits_lines t) unit none
  apply Text.lines_unlines
  · intro hnil
    have hlength := length_layout unit none t.lines
    rw [hnil, eq_comm] at hlength
    exact Text.lines_ne_nil t (List.length_eq_zero_iff.mp hlength)
  · exact unbroken_layout (Text.unbroken_lines t) unit none
  · intro hlf
    rwa [hlf] at hfits

theorem detect_laidOut (unit : Int) (t : Text) : LineEnding.detect (t.laidOut unit) = .detect t :=
  Text.detect_unlines (unbroken_layout (Text.unbroken_lines t) unit none)
    (fits_layout (Text.fits_lines t) unit none)

theorem laidOut_laidOut (unit : Int) (t : Text) :
    (t.laidOut unit).laidOut unit = t.laidOut unit := by
  rw [Text.laidOut, lines_laidOut, detect_laidOut, layout_layout, Text.laidOut]

theorem reindent_ofText (unit : Int) (t : Text) :
    ∃ s, Editor.reindent (.lookback unit) (.ofDocument (.ofText t))
        = .ok ⟨layout unit none t.lines, differences 0 t.lines (layout unit none t.lines)⟩ s
      ∧ s.document.text (.detect t) = t.laidOut unit := by
  have hidle : (Editor.ofDocument (.ofText t)).Idle :=
    ⟨rfl, rfl, fun _ hl => absurd hl List.not_mem_nil⟩
  obtain ⟨s, hrun, -, hlines, -⟩ := Editor.reindent_lookback unit hidle
  refine ⟨s, hrun, ?_⟩
  rw [Document.text, hlines]
  rfl

/-! ## The command -/

namespace Cli

open Terminal

variable {fs : FileSystem} {style : Style} {file : Text} {source : Source} {s : Editor}

theorem reindented_of_ok {r : Reindented}
    (h : Editor.reindent source.indenter (.ofDocument source.document) = .ok r s) (q : Report) :
    reindented source q = .ok (s.document, r.changed) q := by
  unfold reindented
  simp only [h]
  rfl

/-- What the command logs when it has laid out its lines. -/
def changesMessage (file : Text) (changed : List Nat) : Text :=
  file ++ utf16 ": " ++ pluralize changed.length (utf16 "line") ++ utf16 " re-indented"

/-- What the command prints when it has written a file. -/
def writtenLine (palette : Palette) (file : Text) (changed : List Nat) : Text :=
  palette.paint .green (utf16 "✓ Re-indented " ++ pluralize changed.length (utf16 "line")
    ++ utf16 " in " ++ file)

/-- The command lays out its lines and logs their number before it looks at its flags. -/
theorem indent_of_ok {r : Reindented} (check write : Bool)
    (h : Editor.reindent source.indenter (.ofDocument source.document) = .ok r s) (q : Report) :
    indent fs style file check write source q
      = (if check then checkLines style.palette file r.changed
          else if write then do
            Run.write fs file (s.document.text source.ending)
            Run.printLine (writtenLine style.palette file r.changed)
          else Run.onStreams (·.print (s.document.text source.ending)) : Run Unit)
        (q.logged style.verbose [changesMessage file r.changed]) := by
  unfold indent
  rw [Run.bind_ok (reindented_of_ok h q)]
  simp only [Run.bind_ok (Run.debug_run style _ q)]
  rfl

/-- The text is handed over before the file system is asked. -/
theorem write_indent {r : Reindented}
    (h : Editor.reindent source.indenter (.ofDocument source.document) = .ok r s) :
    (run style (indent fs style file false true source)).write
      = some (file, s.document.text source.ending) := by
  unfold run
  simp only [indent_of_ok false true h, Bool.false_eq_true, if_false, if_true]
  cases hproblem : fs.writeProblem? file (Utf8.encode (s.document.text source.ending)) with
  | none =>
    rw [Run.bind_ok (Run.write_of_none hproblem _)]
    rfl
  | some problem => rw [Run.bind_error (Run.write_of_some hproblem _)]

theorem exitCode_indent (source : Source) {r : Reindented}
    (h : Editor.reindent source.indenter (.ofDocument source.document) = .ok r s) (write : Bool) :
    (run style (indent fs style file true write source)).exitCode
      = if r.changed = [] then 0 else 1 := by
  obtain ⟨output, hcheck⟩ := checkLines_run style.palette file r.changed
  unfold run
  simp only [indent_of_ok true write h, if_true, hcheck, Report.exitCode_logged]

theorem exitCode_indent_check {lines : List Text}
    (h : Editor.reindent source.indenter (.ofDocument source.document) = .ok ⟨lines, []⟩ s)
    (write : Bool) : (run style (indent fs style file true write source)).exitCode = 0 :=
  exitCode_indent source h write

end Cli

/-- The text with its lines indented, and the numbers of the lines that changed. -/
def Text.indented (unit : Int) (t : Text) : Except Failure (Text × List Nat) :=
  match Editor.reindent (.lookback unit) (.ofDocument (.ofText t)) with
  | .ok r s => .ok (s.document.text (.detect t), r.changed)
  | .error e _ => .error e

theorem indented_eq (unit : Int) (t : Text) :
    t.indented unit
      = .ok (t.laidOut unit, differences 0 t.lines (layout unit none t.lines)) := by
  obtain ⟨s, hrun, htext⟩ := reindent_ofText unit t
  simp only [Text.indented, hrun, htext]

theorem differences_laidOut (unit : Int) (t : Text) :
    differences 0 (t.laidOut unit).lines (layout unit none (t.laidOut unit).lines) = [] := by
  rw [lines_laidOut, layout_layout]
  exact differences_self 0 _

/-- What indenting a text gives is not changed by indenting it again, and no line is
reported then: the text the command writes passes the check of the command. -/
theorem indented_text_passes (t : Text) (unit : Nat) :
    ∃ (u : Text) (changed : List Nat), t.indented unit = .ok (u, changed)
      ∧ u.indented unit = .ok (u, [])
      ∧ ∀ (fs : FileSystem) (style : Cli.Style) (file : Text) (write : Bool),
        (Cli.run style (Cli.indent fs style file false true ⟨.ofText t, .detect t, unit⟩)).write
            = some (file, u)
          ∧ (Cli.run style (Cli.indent fs style file true write
            ⟨.ofText u, .detect u, unit⟩)).exitCode = 0 := by
  obtain ⟨s, hfirst, htext⟩ := reindent_ofText unit t
  obtain ⟨v, hsecond, -⟩ := reindent_ofText unit (t.laidOut unit)
  refine ⟨t.laidOut unit, _, indented_eq unit t, ?_, fun fs style file write => ⟨?_, ?_⟩⟩
  · rw [indented_eq, laidOut_laidOut, differences_laidOut]
  · rw [← htext]
    exact Cli.write_indent hfirst
  · rw [differences_laidOut] at hsecond
    apply Cli.exitCode_indent_check
    exact hsecond

end JadeEditor
