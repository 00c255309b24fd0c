import JadeEditor.Cli.Commands

/-!
# Printing, logging and writing

What it does to a report to print and to log: text is added to the output stream and nothing
else changes. Debug messages go to the same stream, but only in a verbose run. A file that is
to be written stands in the report, whether or not the file system lets it be written.
-/

namespace JadeEditor.Cli

set_option autoImplicit false

open Terminal

def debugLines (messages : List Text) : Text :=
  messages.flatMap fun m => Level.debug.line m ++ [CodeUnit.lineFeed]

namespace Report

def printed (r : Report) (t : Text) : Report := { r with streams := r.streams.print t }

/-- The report with debug messages, which only a verbose run shows. -/
def logged (r : Report) (verbose : Bool) (messages : List Text) : Report :=
  if verbose then r.printed (debugLines messages) else r

theorem printed_printed (r : Report) (t u : Text) : (r.printed t).printed u = r.printed (t ++ u) := by
  simp [printed, Streams.print]

theorem printed_nil (r : Report) : r.printed [] = r := by
  simp [printed, Streams.print]

theorem logged_nil (r : Report) (verbose : Bool) : r.logged verbose [] = r := by
  cases verbose with
  | false => rfl
  | true => exact printed_nil r

theorem logged_logged (r : Report) (verbose : Bool) (messages more : List Text) :
    (r.logged verbose messages).logged verbose more = r.logged verbose (messages ++ more) := by
  cases verbose with
  | false => rfl
  | true => simp [logged, printed_printed, debugLines]

theorem exitCode_logged (r : Report) (verbose : Bool) (messages : List Text) :
    (r.logged verbose messages).exitCode = r.exitCode := by
  cases verbose with
  | false => rfl
  | true => rfl

end Report

namespace Run

theorem bind_ok {α β : Type} {x : Run α} {r q : Report} {a : α} (h : x r = .ok a q)
    (f : α → Run β) : (x >>= f) r = f a q := by
  simp only [bind, EStateM.bind, h]

theorem bind_error {α β : Type} {x : Run α} {r q : Report} {e : Raised} (h : x r = .error e q)
    (f : α → Run β) : (x >>= f) r = .error e q := by
  simp only [bind, EStateM.bind, h]

theorem printLine_run (t : Text) (r : Report) :
    printLine t r = .ok () (r.printed (t ++ [CodeUnit.lineFeed])) := rfl

theorem debug_run (style : Style) (message : Text) (r : Report) :
    debug style message r = .ok () (r.logged style.verbose [message]) := by
  have hline : debugLines [message] = Level.debug.line message ++ [CodeUnit.lineFeed] :=
    List.append_nil _
  unfold debug Report.logged
  cases style.verbose with
  | false => rfl
  | true =>
    rw [hline]
    rfl

theorem forM_printLine_run {α : Type} (f : α → Text) (as : List α) (r : Report) :
    (as.forM fun a => printLine (f a)) r
      = .ok () (r.printed (as.flatMap fun a => f a ++ [CodeUnit.lineFeed])) := by
  induction as generalizing r with
  | nil =>
    rw [List.flatMap_nil, Report.printed_nil]
    rfl
  | cons a as ih =>
    rw [List.flatMap_cons, ← Report.printed_printed]
    exact ih _

theorem forM_debug_run (style : Style) (messages : List Text) (r : Report) :
    messages.forM (debug style) r = .ok () (r.logged style.verbose messages) := by
  induction messages generalizing r with
  | nil =>
    rw [Report.logged_nil]
    rfl
  | cons m messages ih =>
    change (debug style m >>= fun _ => messages.forM (debug style)) r = _
    rw [bind_ok (debug_run style m r), ih, Report.logged_logged]
    rfl

/-- What is raised when a file cannot be written. -/
def writeError (path : Text) (problem : WriteProblem) : Raised :=
  .error (problem.message path) (Raised.freshTrace (utf16 "Error") (problem.message path))

theorem write_of_none {fs : FileSystem} {path text : Text}
    (h : fs.writeProblem? path (Utf8.encode text) = none) (r : Report) :
    write fs path text r = .ok () { r with write := some (path, text) } := by
  unfold write
  rw [h]
  rfl

theorem write_of_some {fs : FileSystem} {path text : Text} {problem : WriteProblem}
    (h : fs.writeProblem? path (Utf8.encode text) = some problem) (r : Report) :
    write fs path text r
      = .error (writeError path problem) { r with write := some (path, text) } := by
  unfold write
  rw [h]
  rfl

end Run

/-- The command prints a text that is the same for all reports it starts from. -/
def Prints (x : Run Unit) : Prop := ∃ output, ∀ r, x r = .ok () (Report.printed r output)

theorem prints_printLine (t : Text) : Prints (Run.printLine t) := ⟨_, Run.printLine_run t⟩

theorem prints_lines {α : Type} (f : α → Text) (as : List α) :
    Prints (as.forM fun a => Run.printLine (f a)) := ⟨_, Run.forM_printLine_run f as⟩

theorem Prints.ite {p : Prop} [Decidable p] {x y : Run Unit} (hx : Prints x) (hy : Prints y) :
    Prints (if p then x else y) := by
  split
  · exact hx
  · exact hy

theorem checkLines_run (palette : Palette) (file : Text) (changed : List Nat) :
    ∃ output, ∀ r, checkLines palette file changed r = .ok ()
      { Report.printed r output with exitCode := if changed = [] then r.exitCode else 1 } := by
  cases changed with
  | nil => exact ⟨_, fun _ => rfl⟩
  | cons n changed =>
    obtain ⟨lines, hlines⟩ := prints_lines (fun line =>
      file ++ CodeUnit.colon :: Text.ofNat (line + 1) ++ utf16 ": "
        ++ palette.paint .yellow (utf16 "indentation differs")) (n :: changed)
    obtain ⟨total, htotal⟩ := prints_printLine (palette.paint .yellow (CodeUnit.lineFeed
      :: pluralize (n :: changed).length (utf16 "line") ++ utf16 " would be re-indented"))
    refine ⟨lines ++ total, fun r => ?_⟩
    unfold checkLines
    rw [if_neg (by simp), Run.bind_ok (hlines r), Run.bind_ok (htotal _), Report.printed_printed]
    rfl

end JadeEditor.Cli
