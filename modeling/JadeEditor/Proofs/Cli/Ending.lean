import JadeEditor.Proofs.Indent.Idempotent

/-!
# How commands end

A command reads its numbers and its settings, logs the width of a level, looks at the kind of
the file and reads it, and then does its work. It either raises something on the way, having
printed nothing but debug messages, or it ends with its whole output behind its debug
messages. Which of these happens does not depend on whether the messages are shown.
-/

namespace JadeEditor.Cli

set_option autoImplicit false

open Terminal

/-! ## Endings -/

/-- How a command ends, whether or not its messages are shown: it raises something, or it
leaves an output and an exit code. In both cases there may be a file that was to be written. -/
inductive Ending where
  | raised (messages : List Text) (what : Raised) (write : Option (Text × Text))
  | done (messages : List Text) (output : Text) (exitCode : Nat) (write : Option (Text × Text))

def Ending.result (verbose : Bool) : Ending → EStateM.Result Raised Report Unit
  | raised messages what write => .error what { Report.logged {} verbose messages with write }
  | done messages output exitCode write =>
    .ok () { (Report.logged {} verbose messages).printed output with exitCode, write }

theorem Ending.result_raised (verbose : Bool) (messages : List Text) (what : Raised) :
    (raised messages what none).result verbose = .error what (Report.logged {} verbose messages) := by
  cases verbose with
  | false => rfl
  | true => rfl

/-- Started when `messages` have been logged, the command ends so. -/
def Ends (command : Bool → Run Unit) (messages : List Text) (e : Ending) : Prop :=
  ∀ verbose, command verbose (Report.logged {} verbose messages) = e.result verbose

section Ends

variable {command : Bool → Run Unit} {messages : List Text} {e : Ending} {palette : Palette}
  {json : Bool}

theorem Ends.debug {message : Text} (h : Ends command (messages ++ [message]) e) :
    Ends (fun verbose => do Run.debug ⟨palette, verbose, json⟩ message; command verbose)
      messages e := by
  intro verbose
  change (Run.debug ⟨palette, verbose, json⟩ message >>= fun _ => command verbose) _ = _
  rw [Run.bind_ok (Run.debug_run _ message _), Report.logged_logged]
  exact h verbose

theorem Ends.debugAll {more : List Text} (h : Ends command (messages ++ more) e) :
    Ends (fun verbose => do more.forM (Run.debug ⟨palette, verbose, json⟩); command verbose)
      messages e := by
  intro verbose
  change (more.forM (Run.debug ⟨palette, verbose, json⟩) >>= fun _ => command verbose) _ = _
  rw [Run.bind_ok (Run.forM_debug_run _ more _), Report.logged_logged]
  exact h verbose

theorem Ends.give {α : Type} {x : Run α} {a : α} {rest : Bool → α → Run Unit}
    (hx : ∀ r, x r = .ok a r) (h : Ends (fun verbose => rest verbose a) messages e) :
    Ends (fun verbose => x >>= rest verbose) messages e := by
  intro verbose
  refine (Run.bind_ok (hx _) _).trans ?_
  exact h verbose

theorem Prints.ends {x : Run Unit} (h : Prints x) (messages : List Text) :
    ∃ output, Ends (fun _ => x) messages (.done messages output 0 none) := by
  obtain ⟨output, hrun⟩ := h
  refine ⟨output, ?_⟩
  intro verbose
  refine (hrun _).trans ?_
  cases verbose with
  | false => rfl
  | true => rfl

end Ends

/-! ## Loading -/

/-- The source file can be had: the settings are in force, the kind of file is known, and
this is its text. -/
structure Loads (fs : FileSystem) (i : Invocation) (t : Text) (s : Settings) : Prop where
  settings : settings fs i.options = .ok s
  supported : (registry.detect? i.file).isNone = false
  text : fs.read i.file = .ok t

def offsetMessage (s : Settings) : Text := utf16 "indent offset: " ++ .ofNat s.indentOffset

def sourceOf (t : Text) (s : Settings) : Source := ⟨.ofText t, .detect t, s.indentOffset⟩

section Loading

variable {fs : FileSystem} {i : Invocation} {t : Text} {s : Settings}

theorem lift_run {α : Type} (a : α) (r : Report) : lift (.ok a) r = .ok a r := rfl

theorem loadSourceWith_of_unsettled {reader : Settings.Reader} {options : CommonOptions} {f : Fault}
    (h : settingsWith reader fs options = .error f) (style : Style) (file : Text) (r : Report) :
    loadSourceWith reader fs style file options r = .error (.ofFault f) r := by
  unfold loadSourceWith
  rw [h]
  rfl

theorem loadSourceWith_of_settled {reader : Settings.Reader} {options : CommonOptions}
    (h : settingsWith reader fs options = .ok s) (style : Style) (file : Text) (r : Report) :
    loadSourceWith reader fs style file options r
      = (do
          if (registry.detect? file).isNone then Run.fail (unsupported file)
          match fs.read file with
          | .error problem => Run.fail (unreadable file problem)
          | .ok text => return sourceOf text s : Run Source)
        (r.logged style.verbose [offsetMessage s]) := by
  unfold loadSourceWith
  rw [h, Run.bind_ok (lift_run s r), Run.bind_ok (Run.debug_run style _ r)]
  rfl

theorem loadSource_of_unsettled {f : Fault} (h : settings fs i.options = .error f) (style : Style)
    (r : Report) : loadSource fs style i.file i.options r = .error (.ofFault f) r :=
  loadSourceWith_of_unsettled h style i.file r

theorem loadSource_of_settled (h : settings fs i.options = .ok s) (style : Style) (r : Report) :
    loadSource fs style i.file i.options r
      = (do
          if (registry.detect? i.file).isNone then Run.fail (unsupported i.file)
          match fs.read i.file with
          | .error problem => Run.fail (unreadable i.file problem)
          | .ok text => return sourceOf text s : Run Source)
        (r.logged style.verbose [offsetMessage s]) :=
  loadSourceWith_of_settled h style i.file r

theorem loadSource_of_loads (h : Loads fs i t s) (style : Style) (r : Report) :
    loadSource fs style i.file i.options r
      = .ok (sourceOf t s) (r.logged style.verbose [offsetMessage s]) := by
  rw [loadSource_of_settled h.settings, h.supported, h.text]
  rfl

/-- Once the settings are in force, what is missing shows behind the first message. -/
theorem loadSource_cases (h : settings fs i.options = .ok s) :
    (∃ t, Loads fs i t s)
    ∨ (registry.detect? i.file = none ∨ ∃ p, fs.read i.file = .error p)
      ∧ ∃ f, ∀ style r, loadSource fs style i.file i.options r
        = .error (.ofFault f) (Report.logged r style.verbose [offsetMessage s]) := by
  cases hkind : (registry.detect? i.file).isNone with
  | true =>
    refine .inr ⟨.inl (Option.isNone_iff_eq_none.mp hkind), unsupported i.file, ?_⟩
    intro style r
    rw [loadSource_of_settled h, hkind]
    rfl
  | false =>
    cases hread : fs.read i.file with
    | ok t => exact .inl ⟨t, h, hkind, hread⟩
    | error p =>
      refine .inr ⟨.inr ⟨p, rfl⟩, unreadable i.file p, ?_⟩
      intro style r
      rw [loadSource_of_settled h, hkind, hread]
      rfl

end Loading

/-! ## The work of each command -/

section Work

variable (palette : Palette) (json : Bool) (file : Text) (messages : List Text)

theorem outline_ends (source : Source) :
    ∃ m output, Ends (fun verbose => outline ⟨palette, verbose, json⟩ file source) messages
      (.done (messages ++ [m]) output 0 none) := by
  have hprints : Prints (
      if json then Run.printLine (Data.list (source.document.outline.map definitionData)).json
      else if source.document.outline.isEmpty then
        Run.printLine (palette.paint .yellow (utf16 "No function definitions found"))
      else (outlineRows palette source.document.outline).forM Run.printLine) := by
    refine .ite (prints_printLine _) (.ite (prints_printLine _) ?_)
    exact prints_lines id _
  obtain ⟨output, hends⟩ := hprints.ends (messages ++ [file ++ utf16 ": "
    ++ pluralize source.document.outline.length (utf16 "definition")])
  exact ⟨_, output, hends.debug⟩

theorem highlight_ends (source : Source) :
    ∃ output, Ends (fun verbose => highlight ⟨palette, verbose, json⟩ source) messages
      (.done messages output 0 none) := by
  have hprints : Prints (source.document.lines.forM fun line =>
      Run.printLine (Line.render palette Line.Rule.standard line)) := prints_lines _ _
  exact hprints.ends messages

variable (fs : FileSystem) (t : Text) (s : Settings)

theorem indent_sourceOf (check write : Bool) (style : Style) (q : Report) :
    let changed := differences 0 t.lines (layout s.indentOffset none t.lines)
    indent fs style file check write (sourceOf t s) q
      = (if check then checkLines style.palette file changed
          else if write then do
            Run.write fs file (t.laidOut s.indentOffset)
            Run.printLine (writtenLine style.palette file changed)
          else Run.onStreams (·.print (t.laidOut s.indentOffset)) : Run Unit)
        (q.logged style.verbose [changesMessage file changed]) := by
  obtain ⟨e, hrun, htext⟩ := reindent_ofText s.indentOffset t
  have hsource : Editor.reindent (sourceOf t s).indenter (.ofDocument (sourceOf t s).document)
      = .ok _ e := hrun
  rw [indent_of_ok check write hsource, ← htext]
  rfl

variable {fs t s} in
/-- The command ends as what it does once the changes are logged. -/
theorem Ends.indent {check write : Bool} {e : Ending}
    (h : let changed := differences 0 t.lines (layout s.indentOffset none t.lines)
      Ends (fun _ => if check then checkLines palette file changed
          else if write then do
            Run.write fs file (t.laidOut s.indentOffset)
            Run.printLine (writtenLine palette file changed)
          else Run.onStreams (·.print (t.laidOut s.indentOffset)))
        (messages ++ [changesMessage file changed]) e) :
    Ends (fun verbose => indent fs ⟨palette, verbose, json⟩ file check write (sourceOf t s))
      messages e := by
  intro verbose
  refine (indent_sourceOf file fs t s check write _ _).trans ?_
  rw [Report.logged_logged]
  exact h verbose

theorem checkLines_ends (changed : List Nat) :
    ∃ output, Ends (fun _ => checkLines palette file changed) messages
      (.done messages output (if changed ≠ [] then 1 else 0) none) := by
  obtain ⟨output, hrun⟩ := checkLines_run palette file changed
  refine ⟨output, fun verbose => ?_⟩
  refine (hrun _).trans ?_
  rw [Report.exitCode_logged, Ending.result, ite_not]
  cases verbose with
  | false => rfl
  | true => rfl

theorem write_ends {u : Text} (h : fs.writeProblem? file (Utf8.encode u) = none) (line : Text) :
    Ends (fun _ => do Run.write fs file u; Run.printLine line) messages
      (.done messages (line ++ [CodeUnit.lineFeed]) 0 (some (file, u))) := by
  intro verbose
  refine (Run.bind_ok (Run.write_of_none h _) _).trans ?_
  cases verbose with
  | false => rfl
  | true => rfl

theorem indent_ends (check write : Bool) (hwrite : check = false → write = true →
      fs.writeProblem? file (Utf8.encode (t.laidOut s.indentOffset)) = none) :
    ∃ m output, Ends (fun verbose =>
        indent fs ⟨palette, verbose, json⟩ file check write (sourceOf t s))
      messages (.done (messages ++ [m]) output
        (if check = true ∧ differences 0 t.lines (layout s.indentOffset none t.lines) ≠ [] then 1
          else 0)
        (if check = false ∧ write = true then some (file, t.laidOut s.indentOffset) else none)) := by
  let changed := differences 0 t.lines (layout s.indentOffset none t.lines)
  refine ⟨changesMessage file changed, ?_⟩
  cases check with
  | true =>
    obtain ⟨output, hends⟩ := checkLines_ends palette file (messages ++ [changesMessage file changed])
      changed
    refine ⟨output, Ends.indent palette json file messages ?_⟩
    rw [← if_congr (and_iff_right (rfl : true = true)) rfl rfl] at hends
    exact hends
  | false =>
    cases write with
    | true =>
      have hends := write_ends file (messages ++ [changesMessage file changed]) fs
        (hwrite rfl rfl) (writtenLine palette file changed)
      exact ⟨_, Ends.indent palette json file messages hends⟩
    | false =>
      have hprints : Prints (Run.onStreams (·.print (t.laidOut s.indentOffset))) :=
        ⟨_, fun _ => rfl⟩
      obtain ⟨output, hends⟩ := hprints.ends (messages ++ [changesMessage file changed])
      exact ⟨output, Ends.indent palette json file messages hends⟩

theorem indent_of_problem {problem : WriteProblem}
    (h : fs.writeProblem? file (Utf8.encode (t.laidOut s.indentOffset)) = some problem) :
    ∃ m, Ends (fun verbose => indent fs ⟨palette, verbose, json⟩ file false true (sourceOf t s))
      messages (.raised (messages ++ [m]) (Run.writeError file problem)
        (some (file, t.laidOut s.indentOffset))) :=
  ⟨_, Ends.indent palette json file messages fun _ => Run.bind_error (Run.write_of_some h _) _⟩

theorem travel_run (d : Document) (toEnd : Bool) (count : Nat) :
    ∃ t log, ∀ r, travel d toEnd count r = .ok (t, log) r := by
  have hjump : ∃ t e, (if toEnd then Editor.jumpToEnd count else Editor.jumpToStart count)
      (.ofDocument d) = .ok t e := by
    cases toEnd with
    | true =>
      obtain ⟨log, hrun⟩ := Editor.follow_leaves (utf16 "end-of-defun")
        (d.toBlockEnd d.cursor.position count) (.ofDocument d)
      exact ⟨_, _, hrun⟩
    | false =>
      obtain ⟨log, hrun⟩ := Editor.follow_leaves (utf16 "beginning-of-defun")
        (d.toDefinitionStart d.cursor.position count) (.ofDocument d)
      exact ⟨_, _, hrun⟩
  obtain ⟨t, e, hrun⟩ := hjump
  refine ⟨t, e.log, fun r => ?_⟩
  unfold travel
  simp only [hrun]
  rfl

theorem navigate_ends (source : Source) {line : Nat} (column count : Nat) (toEnd : Bool)
    (hline : line ≤ source.document.lines.length) :
    ∃ more output, Ends (fun verbose =>
        navigate ⟨palette, verbose, json⟩ file line column count toEnd source)
      messages (.done (messages ++ more) output 0 none) := by
  obtain ⟨t, log, htravel⟩ := travel_run
    (source.document.moveTo ⟨line - 1, column - 1⟩) toEnd count
  have hprints : Prints (if json then Run.printLine (travelData t).json
      else Run.printLine (if t.outcome = .done then travelText file t
        else palette.paint .yellow (travelText file t))) :=
    .ite (prints_printLine _) (prints_printLine _)
  obtain ⟨output, hends⟩ := hprints.ends (messages ++ log)
  refine ⟨log, output, fun verbose => ?_⟩
  refine (congrFun (if_neg (Nat.not_lt.mpr hline)) _).trans ?_
  refine (Run.bind_ok (htravel _) _).trans ?_
  exact hends.debugAll verbose

theorem navigate_of_pastEnd (source : Source) {line : Nat} (column count : Nat) (toEnd : Bool)
    (hline : source.document.lines.length < line) :
    ∃ f, Ends (fun verbose => navigate ⟨palette, verbose, json⟩ file line column count toEnd source)
      messages (.raised messages (.ofFault f) none) := by
  refine ⟨pastEnd line file source.document.lines.length, fun verbose => ?_⟩
  rw [Ending.result_raised]
  exact congrFun (if_pos hline) _

end Work

/-! ## Commands as a whole -/

namespace Invocation

/-- The options that stand for numbers, the width of a level aside. -/
def numbers (i : Invocation) : List Text :=
  match i.command with
  | .navigate line column count _ => line :: (column.toList ++ count.toList)
  | _ => []

/-- The command fails before any settings are in force. -/
inductive Unsettled (fs : FileSystem) (i : Invocation) : Prop where
  | number {value : Text} : value ∈ i.numbers → positive? value = none → Unsettled fs i
  | settings {f : Fault} : settings fs i.options = .error f → Unsettled fs i

/-- The file cannot be worked on: it is of another kind, cannot be read, or has no such line. -/
inductive Obstructed (fs : FileSystem) (i : Invocation) : Prop where
  | kind : registry.detect? i.file = none → Obstructed fs i
  | unreadable {p : ReadProblem} : fs.read i.file = .error p → Obstructed fs i
  | pastEnd {line : Text} {column count : Option Text} {toEnd : Bool} {n : Nat} {t : Text} :
    i.command = .navigate line column count toEnd → positive? line = some n →
    fs.read i.file = .ok t → t.lines.length < n → Obstructed fs i

/-- The command indents its file: the file can be had, and indented it has this text and
these lines that changed. -/
structure Indents (fs : FileSystem) (i : Invocation) (check write : Bool) (u : Text)
    (changed : List Nat) : Prop where
  command : i.command = .indent check write
  indented : ∃ t s, Loads fs i t s ∧ t.indented s.indentOffset = .ok (u, changed)

/-- The command is to put this text into its file. -/
def Rewrites (fs : FileSystem) (i : Invocation) (u : Text) : Prop :=
  ∃ changed, i.Indents fs false true u changed

/-- The command is to write its file, and the file system has this against it. -/
def Rejected (fs : FileSystem) (i : Invocation) (problem : WriteProblem) : Prop :=
  ∃ u, i.Rewrites fs u ∧ fs.writeProblem? i.file (Utf8.encode u) = some problem

end Invocation

section Indents

variable {fs : FileSystem} {i : Invocation} {t t' : Text} {s s' : Settings} {check write : Bool}
  {u : Text} {changed : List Nat}

theorem Loads.unique (h : Loads fs i t s) (h' : Loads fs i t' s') : t = t' ∧ s = s' := by
  have htext := h.text.symm.trans h'.text
  have hsettings := h.settings.symm.trans h'.settings
  cases htext
  cases hsettings
  exact ⟨rfl, rfl⟩

theorem not_unsettled (hnumbers : ∀ v ∈ i.numbers, positive? v ≠ none)
    (hs : settings fs i.options = .ok s) : ¬ i.Unsettled fs := by
  intro h
  cases h with
  | number hv hnone => exact hnumbers _ hv hnone
  | settings hf =>
    rw [hs] at hf
    cases hf

theorem Loads.not_obstructed (h : Loads fs i t s)
    (hline : ∀ line column count toEnd n, i.command = .navigate line column count toEnd →
      positive? line = some n → n ≤ t.lines.length) : ¬ i.Obstructed fs := by
  intro hobstructed
  cases hobstructed with
  | kind hnone =>
    have hsupported := h.supported
    rw [hnone] at hsupported
    cases hsupported
  | unreadable hp =>
    rw [h.text] at hp
    cases hp
  | pastEnd hcommand hn hread hpast =>
    rw [h.text] at hread
    cases hread
    exact Nat.not_lt.mpr (hline _ _ _ _ _ hcommand hn) hpast

theorem Invocation.Indents.free (h : i.Indents fs check write u changed) :
    ¬ i.Unsettled fs ∧ ¬ i.Obstructed fs := by
  obtain ⟨hcommand, t, s, hloads, _⟩ := h
  constructor
  · apply not_unsettled _ hloads.settings
    intro v hv
    rw [Invocation.numbers, hcommand] at hv
    exact absurd hv List.not_mem_nil
  · apply hloads.not_obstructed
    intro _ _ _ _ _ hnavigate
    rw [hcommand] at hnavigate
    cases hnavigate

theorem Invocation.Rewrites.free (h : i.Rewrites fs u) : ¬ i.Unsettled fs ∧ ¬ i.Obstructed fs := by
  obtain ⟨changed, hindents⟩ := h
  exact hindents.free

theorem Invocation.Indents.unique {check' write' : Bool} {u' : Text}
    {changed' : List Nat} (h : i.Indents fs check write u changed)
    (h' : i.Indents fs check' write' u' changed') :
    check = check' ∧ write = write' ∧ u = u' ∧ changed = changed' := by
  obtain ⟨hcommand, t, s, hloads, hindented⟩ := h
  obtain ⟨hcommand', t', s', hloads', hindented'⟩ := h'
  obtain ⟨rfl, rfl⟩ := hloads.unique hloads'
  cases hcommand.symm.trans hcommand'
  cases hindented.symm.trans hindented'
  exact ⟨rfl, rfl, rfl, rfl⟩

theorem Invocation.Rewrites.unique {v : Text} (h : i.Rewrites fs u) (h' : i.Rewrites fs v) :
    u = v := by
  obtain ⟨_, hindents⟩ := h
  obtain ⟨_, hindents'⟩ := h'
  exact (hindents.unique hindents').2.2.1

end Indents

/-- The ways a command can end, and what each says of the files and of the command. -/
inductive Course (fs : FileSystem) (i : Invocation) : Ending → Prop where
  | unsettled {f : Fault} : i.Unsettled fs → Course fs i (.raised [] (.ofFault f) none)
  | obstructed {m : Text} {f : Fault} : ¬ i.Unsettled fs → i.Obstructed fs →
    Course fs i (.raised [m] (.ofFault f) none)
  | rejected {m : Text} {more : List Text} {u : Text} {problem : WriteProblem} :
    i.Rewrites fs u → fs.writeProblem? i.file (Utf8.encode u) = some problem →
    Course fs i (.raised (m :: more) (Run.writeError i.file problem) (some (i.file, u)))
  | indented {m : Text} {more : List Text} {output u : Text} {check write : Bool}
    {changed : List Nat} : i.Indents fs check write u changed → (∀ p, ¬ i.Rejected fs p) →
    Course fs i (.done (m :: more) output (if check = true ∧ changed ≠ [] then 1 else 0)
      (if check = false ∧ write = true then some (i.file, u) else none))
  | shown {m : Text} {more : List Text} {output : Text} :
    ¬ i.Unsettled fs → ¬ i.Obstructed fs → (∀ check write, i.command ≠ .indent check write) →
    Course fs i (.done (m :: more) output 0 none)

/-- Started when `messages` have been logged, the command ends in one of these ways. -/
def Follows (fs : FileSystem) (i : Invocation) (messages : List Text)
    (command : Bool → Run Unit) : Prop := ∃ e, Course fs i e ∧ Ends command messages e

section Course

variable {fs : FileSystem} {i : Invocation} {palette : Palette} {json : Bool}

/-- Once its numbers are read, a command loads its source and goes to work. -/
theorem follows_of_load (hnumbers : ∀ v ∈ i.numbers, positive? v ≠ none)
    (work : Style → Source → Run Unit)
    (hwork : ∀ t s, Loads fs i t s → ¬ i.Unsettled fs → Follows fs i [offsetMessage s]
      fun verbose => work ⟨palette, verbose, json⟩ (sourceOf t s)) :
    Follows fs i [] fun verbose =>
      loadSource fs ⟨palette, verbose, json⟩ i.file i.options >>= work ⟨palette, verbose, json⟩ := by
  cases hs : settings fs i.options with
  | error f =>
    refine ⟨.raised [] (.ofFault f) none, .unsettled (.settings hs), fun verbose => ?_⟩
    rw [Ending.result_raised]
    exact Run.bind_error (loadSource_of_unsettled hs _ _) _
  | ok s =>
    have hsettled := not_unsettled hnumbers hs
    rcases loadSource_cases hs with ⟨t, hloads⟩ | ⟨hmissing, f, hfail⟩
    · obtain ⟨e, hcourse, hends⟩ := hwork t s hloads hsettled
      refine ⟨e, hcourse, fun verbose => ?_⟩
      refine (Run.bind_ok (loadSource_of_loads hloads _ _) _).trans ?_
      rw [Report.logged_logged]
      exact hends verbose
    · have hobstructed : i.Obstructed fs := by
        rcases hmissing with hkind | ⟨p, hp⟩
        · exact .kind hkind
        · exact .unreadable hp
      refine ⟨.raised [offsetMessage s] (.ofFault f) none, .obstructed hsettled hobstructed,
        fun verbose => ?_⟩
      refine (Run.bind_error (hfail _ _) _).trans ?_
      rw [Report.logged_logged, Ending.result_raised]
      rfl

/-! ### Numbers -/

theorem parsePositive_eq_ok {name value : Text} {n : Nat} (h : parsePositive name value = .ok n) :
    positive? value = some n := by
  unfold parsePositive at h
  cases hvalue : positive? value with
  | some m =>
    rw [hvalue] at h
    cases h
    rfl
  | none =>
    rw [hvalue] at h
    cases h

theorem parsePositive_eq_error {name value : Text} {f : Fault}
    (h : parsePositive name value = .error f) : positive? value = none := by
  unfold parsePositive at h
  cases hvalue : positive? value with
  | some m =>
    rw [hvalue] at h
    cases h
  | none => rfl

theorem countOr_eq_ok {name : Text} {value? : Option Text} {n : Nat}
    (h : countOr name value? = .ok n) : ∀ v ∈ value?.toList, positive? v ≠ none := by
  intro v hv
  obtain rfl := Option.mem_toList.mp hv
  rw [parsePositive_eq_ok h]
  exact Option.some_ne_none n

theorem countOr_eq_error {name : Text} {value? : Option Text} {f : Fault}
    (h : countOr name value? = .error f) : ∃ v ∈ value?.toList, positive? v = none := by
  cases value? with
  | none => cases h
  | some v => exact ⟨v, List.mem_singleton_self v, parsePositive_eq_error h⟩

/-- A command that first reads a number either gets one or gives up. -/
theorem follows_of_number {x : Except Fault Nat} {rest : Nat → Bool → Run Unit}
    (hnone : ∀ f, x = .error f → ∃ v ∈ i.numbers, positive? v = none)
    (hsome : ∀ n, x = .ok n → Follows fs i [] (rest n)) :
    Follows fs i [] fun verbose => lift x >>= fun n => rest n verbose := by
  cases x with
  | ok n => exact hsome n rfl
  | error f =>
    obtain ⟨v, hv, hv'⟩ := hnone f rfl
    refine ⟨.raised [] (.ofFault f) none, .unsettled (.number hv hv'), fun verbose => ?_⟩
    rw [Ending.result_raised]
    rfl

/-! ### Each command -/

theorem navigate_follows {line : Text} {column count : Option Text} {toEnd : Bool} {n : Nat}
    (hcommand : i.command = .navigate line column count toEnd) (hline : positive? line = some n)
    {t : Text} {s : Settings} (hloads : Loads fs i t s) (hsettled : ¬ i.Unsettled fs) (c k : Nat) :
    Follows fs i [offsetMessage s] fun verbose =>
      navigate ⟨palette, verbose, json⟩ i.file n c k toEnd (sourceOf t s) := by
  by_cases hpast : t.lines.length < n
  · obtain ⟨f, hends⟩ := navigate_of_pastEnd palette json i.file [offsetMessage s]
      (sourceOf t s) c k toEnd hpast
    exact ⟨_, .obstructed hsettled (.pastEnd hcommand hline hloads.text hpast), hends⟩
  · obtain ⟨more, output, hends⟩ := navigate_ends palette json i.file [offsetMessage s]
      (sourceOf t s) c k toEnd (Nat.not_lt.mp hpast)
    have hfree := hloads.not_obstructed (by
      intro _ _ _ _ m hcommand' hm
      cases hcommand.symm.trans hcommand'
      cases hline.symm.trans hm
      exact Nat.not_lt.mp hpast)
    refine ⟨_, .shown hsettled hfree fun check write hindent => ?_, hends⟩
    cases hcommand.symm.trans hindent

theorem indent_follows {check write : Bool} (hcommand : i.command = .indent check write)
    {t : Text} {s : Settings} (hloads : Loads fs i t s) :
    Follows fs i [offsetMessage s] fun verbose =>
      indent fs ⟨palette, verbose, json⟩ i.file check write (sourceOf t s) := by
  have hindents : i.Indents fs check write (t.laidOut s.indentOffset)
      (differences 0 t.lines (layout s.indentOffset none t.lines)) :=
    ⟨hcommand, t, s, hloads, indented_eq s.indentOffset t⟩
  by_cases hrejected : ∃ problem, i.Rejected fs problem
  · obtain ⟨problem, u, ⟨changed, hrewrites⟩, hproblem⟩ := hrejected
    cases hcommand.symm.trans hrewrites.command
    obtain rfl : u = t.laidOut s.indentOffset :=
      Invocation.Rewrites.unique ⟨changed, hrewrites⟩ ⟨_, hindents⟩
    obtain ⟨m, hends⟩ := indent_of_problem palette json i.file [offsetMessage s] fs t s hproblem
    exact ⟨_, .rejected ⟨_, hindents⟩ hproblem, hends⟩
  · push Not at hrejected
    have hwrite : check = false → write = true →
        fs.writeProblem? i.file (Utf8.encode (t.laidOut s.indentOffset)) = none := by
      rintro rfl rfl
      rw [Option.eq_none_iff_forall_ne_some]
      intro problem hproblem
      exact hrejected problem ⟨_, ⟨_, hindents⟩, hproblem⟩
    obtain ⟨m, output, hends⟩ := indent_ends palette json i.file [offsetMessage s] fs t s check
      write hwrite
    exact ⟨_, .indented hindents hrejected, hends⟩

theorem body_follows (fs : FileSystem) (palette : Palette) (json : Bool) (i : Invocation) :
    Follows fs i [] fun verbose => body fs ⟨palette, verbose, json⟩ i := by
  obtain ⟨command, file, options⟩ := i
  cases command with
  | outline =>
    refine follows_of_load (fun v hv => absurd hv List.not_mem_nil) (outline · file) ?_
    intro t s hloads hsettled
    obtain ⟨m, output, hends⟩ := outline_ends palette json file [offsetMessage s] (sourceOf t s)
    have hfree := hloads.not_obstructed fun _ _ _ _ _ hcommand => nomatch hcommand
    exact ⟨_, .shown hsettled hfree nofun, hends⟩
  | highlight =>
    refine follows_of_load (fun v hv => absurd hv List.not_mem_nil) highlight ?_
    intro t s hloads hsettled
    obtain ⟨output, hends⟩ := highlight_ends palette json [offsetMessage s] (sourceOf t s)
    have hfree := hloads.not_obstructed fun _ _ _ _ _ hcommand => nomatch hcommand
    exact ⟨_, .shown hsettled hfree nofun, hends⟩
  | indent check write =>
    refine follows_of_load (fun v hv => absurd hv List.not_mem_nil)
      (indent fs · file check write) ?_
    intro t s hloads _
    exact indent_follows rfl hloads
  | navigate line column count toEnd =>
    refine follows_of_number (fun f hf => ⟨line, List.mem_cons_self, parsePositive_eq_error hf⟩) ?_
    intro n hn
    refine follows_of_number (fun f hf => ?_) fun c hc => ?_
    · obtain ⟨v, hv, hnone⟩ := countOr_eq_error hf
      exact ⟨v, List.mem_cons_of_mem line (List.mem_append_left _ hv), hnone⟩
    refine follows_of_number (fun f hf => ?_) fun k hk => ?_
    · obtain ⟨v, hv, hnone⟩ := countOr_eq_error hf
      exact ⟨v, List.mem_cons_of_mem line (List.mem_append_right _ hv), hnone⟩
    have hline := parsePositive_eq_ok hn
    refine follows_of_load ?_ (navigate · file n c k toEnd) ?_
    · intro v hv
      rcases List.mem_cons.mp hv with rfl | hv
      · simp [hline]
      · rcases List.mem_append.mp hv with hv | hv
        · exact countOr_eq_ok hc v hv
        · exact countOr_eq_ok hk v hv
    · intro t s hloads hsettled
      exact navigate_follows rfl hline hloads hsettled c k

end Course

/-! ## What is left of a run -/

namespace Ending

def messages : Ending → List Text
  | raised messages _ _ => messages
  | done messages _ _ _ => messages

/-- What stands on the output stream behind the messages. -/
def output (json : Bool) : Ending → Text
  | raised _ what _ => if json then (faultOf what).toData.json ++ [CodeUnit.lineFeed] else []
  | done _ output _ _ => output

def exitCode : Ending → Nat
  | raised _ _ _ => 1
  | done _ _ exitCode _ => exitCode

def write : Ending → Option (Text × Text)
  | raised _ _ write => write
  | done _ _ _ write => write

end Ending

theorem out_detail (palette : Palette) (title body : Text) (s : Streams) :
    (detail palette title body s).out = s.out := rfl

theorem out_errorLine (s : Streams) (t : Text) : (s.errorLine t).out = s.out := rfl

theorem out_describe (palette : Palette) (verbose : Bool) (what : Raised) (s : Streams) :
    (describe palette verbose what s).out = s.out := by
  unfold describe
  cases verbose with
  | false => cases what <;> rfl
  | true =>
    cases what with
    | fault f trace =>
      cases hcontext : shownContext f with
      | none => simp only [hcontext, if_true, out_errorLine]
      | some context => simp only [hcontext, if_true, out_errorLine, out_detail]
    | error message trace =>
      by_cases htrace : trace.isEmpty = true
      · simp only [Raised.trace?, htrace, if_true, out_errorLine]
      · simp only [Raised.trace?, htrace, if_true, Bool.false_eq_true, if_false, out_errorLine,
          out_detail]
    | value d => rfl

theorem run_of_ends {command : Bool → Run Unit} {e : Ending} (h : Ends command [] e)
    (palette : Palette) (verbose json : Bool) :
    (run ⟨palette, verbose, json⟩ (command verbose)).streams.out
        = (if verbose then debugLines e.messages else []) ++ e.output json
      ∧ (run ⟨palette, verbose, json⟩ (command verbose)).exitCode = e.exitCode
      ∧ (run ⟨palette, verbose, json⟩ (command verbose)).write = e.write := by
  have hrun : command verbose {} = e.result verbose := by
    have hstart := h verbose
    rwa [Report.logged_nil] at hstart
  unfold run
  rw [hrun]
  cases e with
  | done messages output exitCode write => cases verbose <;> exact ⟨rfl, rfl, rfl⟩
  | raised messages what write =>
    refine ⟨?_, rfl, rfl⟩
    cases json with
    | true => cases verbose <;> rfl
    | false =>
      refine (out_describe palette verbose what (Report.logged {} verbose messages).streams).trans ?_
      cases verbose with
      | false => rfl
      | true => exact (List.append_nil _).symm

end JadeEditor.Cli
