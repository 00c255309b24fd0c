import JadeEditor.Proofs.Editor.Rollback

/-!
# What is pending in a group

Inside a group a change is only marked as pending. A group that fails takes the mark
back to where it was when the group was opened, so at the end of a body something is
pending exactly if the body, or a group in it that went through, has changed a line.
Which changes last in this sense can be told from the actions and how they ended.
-/

namespace JadeEditor

set_option autoImplicit false

variable {α β : Type}

namespace Document

theorem moveTo_line {d : Document} {line : Nat} (h : line < d.lines.length) :
    (d.moveTo ⟨line, 0⟩).cursor.line = line := by
  simp only [moveTo, clamp, Int.toNat_natCast]
  omega

/-- Only the cursor's line is indented. -/
theorem lines_indentLine_apart (d : Document) (level : Rat) :
    (d.indentLine level).lines.take d.cursor.line = d.lines.take d.cursor.line
      ∧ (d.indentLine level).lines.drop (d.cursor.line + 1) = d.lines.drop (d.cursor.line + 1) := by
  constructor
  · exact List.take_set_of_le (Nat.le_refl _)
  · exact List.drop_set_of_lt (Nat.lt_succ_self _)

end Document

def succeeded : EStateM.Result Failure Editor α → Bool
  | .ok _ _ => true
  | .error _ _ => false

namespace Editor

/-- Unheard, with the mark as it was unless `changed`, in which case it is set. -/
structure Marks (changed : Bool) (s t : Editor) : Prop extends Unheard s t where
  dirty : t.dirty = (s.dirty || changed)
  lines : changed = false → t.document.lines = s.document.lines

theorem Marks.refl (s : Editor) : Marks false s s :=
  ⟨.refl s, (Bool.or_false _).symm, fun _ => rfl⟩

theorem Marks.trans {b c : Bool} {s t u : Editor} (hst : Marks b s t) (htu : Marks c t u) :
    Marks (b || c) s u where
  depth := htu.depth.trans hst.depth
  version := htu.version.trans hst.version
  events := htu.events.trans hst.events
  dirty := by rw [htu.dirty, hst.dirty, Bool.or_assoc]
  lines h := by
    obtain ⟨hb, hc⟩ := Bool.or_eq_false_iff.mp h
    exact (htu.lines hc).trans (hst.lines hb)

/-- On `s` the edit goes through unheard of, and sets the mark if `changed`. -/
def Completes (changed : Bool) (edit : Edit α) (s : Editor) : Prop :=
  ∃ a t, edit s = .ok a t ∧ Marks changed s t

theorem Completes.after {changed : Bool} {edit : Edit α} {s : Editor}
    (h : Completes changed edit s) : Marks changed s (edit.after s) := by
  obtain ⟨a, t, hrun, ht⟩ := h
  rw [Edit.after, hrun]
  exact ht

/-- The edit goes through in every group. -/
def Smooth (edit : Edit α) : Prop := ∀ s : Editor, 0 < s.depth → ∃ changed, Completes changed edit s

theorem Completes.bind {changed : Bool} {x : Edit α} {f : α → Edit β} {s : Editor}
    (hx : Completes changed x s) (hopen : 0 < s.depth) (hf : ∀ a, Smooth (f a)) :
    ∃ more, Completes (changed || more) (x >>= f) s := by
  obtain ⟨a, t, hrun, ht⟩ := hx
  obtain ⟨more, b, u, hrest, hu⟩ := hf a t (ht.depth.symm ▸ hopen)
  exact ⟨more, b, u, (Edit.bind_ok hrun f).trans hrest, ht.trans hu⟩

theorem Smooth.bind {x : Edit α} {f : α → Edit β} (hx : Smooth x) (hf : ∀ a, Smooth (f a)) :
    Smooth (x >>= f) := by
  intro s hopen
  obtain ⟨_, hfirst⟩ := hx s hopen
  obtain ⟨_, hboth⟩ := hfirst.bind hopen hf
  exact ⟨_, hboth⟩

/-! ## Single edits -/

theorem smooth_pure (a : α) : Smooth (pure a) := fun s _ => ⟨false, a, s, rfl, .refl s⟩

theorem smooth_get : Smooth get := fun s _ => ⟨false, s, s, rfl, .refl s⟩

theorem setCursor_completes (p : Position) (s : Editor) : Completes false (setCursor p) s :=
  ⟨(), _, rfl, ⟨rfl, rfl, rfl⟩, (Bool.or_false _).symm, fun _ => rfl⟩

theorem follow_marks (command : Text) (travel : Travel) (s : Editor) :
    Marks false s ((follow command travel).after s) := by
  obtain ⟨position, steps, outcome⟩ := travel
  cases outcome <;> exact ⟨⟨rfl, rfl, rfl⟩, (Bool.or_false _).symm, fun _ => rfl⟩

section Group

variable {s : Editor} (hopen : 0 < s.depth)
include hopen

theorem mutate_completes (change : Document → Document) : Completes true (mutate change) s := by
  refine ⟨(), _, if_neg (Nat.ne_of_gt hopen), ⟨rfl, rfl, rfl⟩, (Bool.or_true _).symm, ?_⟩
  exact fun h => absurd h Bool.noConfusion

theorem insertText_completes (t : Text) : Completes (!t.isEmpty) (insertText t) s := by
  rw [insertText_eq]
  split
  · rename_i hempty
    rw [hempty]
    exact ⟨(), s, rfl, .refl s⟩
  · rename_i hsome
    rw [Bool.eq_false_iff.mpr hsome]
    exact mutate_completes hopen _

theorem indentLine_completes (level : Rat) :
    Completes ((s.document.indentLine level).lines != s.document.lines) (indentLine level) s :=
  ⟨(), _, indentLine_in_group (Nat.ne_of_gt hopen) level, ⟨rfl, rfl, rfl⟩, rfl,
    fun hsame => bne_eq_false_iff_eq.mp hsame⟩

theorem closeGroup_in_group {t : Editor} (ht : Unheard s.openGroup t) :
    closeGroup t = .ok () { t with depth := s.depth } := by
  have hdepth : t.depth - 1 = s.depth := by
    rw [ht.depth]
    rfl
  rw [closeGroup_eq, hdepth]
  exact if_neg (Nat.ne_of_gt hopen)

/-- Only a group that goes through passes its mark on to the one around it. -/
theorem endGroup_marks {changed : Bool} {r : EStateM.Result Failure Editor α}
    (hr : Marks changed s.openGroup (finalEditor r)) :
    Marks (succeeded r && changed) s (finalEditor (endGroup s r))
      ∧ succeeded (endGroup s r) = succeeded r := by
  cases r with
  | ok a t =>
    have hclose := closeGroup_in_group hopen (t := t) hr.toUnheard
    simp only [endGroup_ok, hclose]
    exact ⟨⟨⟨rfl, hr.version, hr.events⟩, hr.dirty, hr.lines⟩, rfl⟩
  | error e t =>
    have hclose := closeGroup_in_group hopen (t := restore s t) ⟨hr.depth, hr.version, hr.events⟩
    simp only [endGroup_error, hclose]
    exact ⟨⟨⟨rfl, hr.version, hr.events⟩, (Bool.or_false _).symm, fun _ => rfl⟩, rfl⟩

theorem atomic_in_group {edit : Edit α} {a : α} {t : Editor}
    (hrun : edit s.openGroup = .ok a t) (ht : Unheard s.openGroup t) :
    atomic edit s = .ok a { t with depth := s.depth } := by
  simp only [atomic_eq, hrun, endGroup_ok, closeGroup_in_group hopen ht]

theorem Completes.atomic {changed : Bool} {edit : Edit α}
    (h : Completes changed edit s.openGroup) : Completes changed (atomic edit) s := by
  obtain ⟨a, t, hrun, ht⟩ := h
  exact ⟨a, _, atomic_in_group hopen hrun ht.toUnheard, ⟨rfl, ht.version, ht.events⟩, ht.dirty,
    ht.lines⟩

end Group

theorem smooth_setCursor (p : Position) : Smooth (setCursor p) :=
  fun s _ => ⟨_, setCursor_completes p s⟩

theorem smooth_mutate (change : Document → Document) : Smooth (mutate change) :=
  fun _ hopen => ⟨_, mutate_completes hopen change⟩

theorem smooth_insertText (t : Text) : Smooth (insertText t) :=
  fun _ hopen => ⟨_, insertText_completes hopen t⟩

theorem smooth_indentLine (level : Rat) : Smooth (indentLine level) :=
  fun _ hopen => ⟨_, indentLine_completes hopen level⟩

/-! ## Commands -/

section Commands

variable {s : Editor} (hopen : 0 < s.depth)
include hopen

/-- A group that begins with a change and cannot fail. -/
theorem atomic_mutate_completes (change : Document → Document) {f : Unit → Edit α}
    (hf : ∀ a, Smooth (f a)) : Completes true (atomic (mutate change >>= f)) s := by
  have hinner : 0 < s.openGroup.depth := Nat.succ_pos _
  obtain ⟨_, hbody⟩ := (mutate_completes hinner change).bind hinner hf
  exact Completes.atomic hopen hbody

theorem newline_completes (unit : Int) : Completes true (newline unit) s := by
  show Completes true (if _ then _ else _) s
  split
  · refine atomic_mutate_completes hopen _ fun _ => ?_
    refine (smooth_indentLine _).bind fun _ => smooth_get.bind fun _ => ?_
    refine (smooth_mutate _).bind fun _ => (smooth_indentLine _).bind fun _ => ?_
    exact (smooth_insertText _).bind fun _ => (smooth_setCursor _).bind fun _ => smooth_pure _
  · refine atomic_mutate_completes hopen _ fun _ => ?_
    exact (smooth_indentLine _).bind fun _ => smooth_pure _

theorem newlineCommand_marks (indenter : Indenter Failure) :
    Marks true s ((newlineCommand indenter).after s) := by
  obtain ⟨n, t, hrun, ht⟩ := newline_completes hopen indenter.unit
  unfold newlineCommand
  rw [Edit.after_bind_ok hrun]
  exact ⟨⟨ht.depth, ht.version, ht.events⟩, ht.dirty, ht.lines⟩

omit hopen in
theorem marks_composable : Composable fun s t => 0 < s.depth → ∃ changed, Marks changed s t where
  refl s _ := ⟨false, .refl s⟩
  trans hst htu hopen := by
    obtain ⟨_, ht⟩ := hst hopen
    obtain ⟨_, hu⟩ := htu (ht.depth.symm ▸ hopen)
    exact ⟨_, ht.trans hu⟩

/-- A group that begins with a change and may fail behind it. -/
theorem atomic_bind_marks {x : Edit α} {f : α → Edit β} (hx : Completes true x s.openGroup)
    (hf : ∀ a, Edit.Keeps (fun s t => 0 < s.depth → ∃ changed, Marks changed s t) (f a)) :
    Marks (succeeded (atomic (x >>= f) s)) s ((atomic (x >>= f)).after s) := by
  have hbody : Marks true s.openGroup ((x >>= f).after s.openGroup) := by
    obtain ⟨a, t, hrun, ht⟩ := hx
    obtain ⟨_, hrest⟩ := hf a t (ht.depth.symm ▸ Nat.succ_pos _)
    have hboth := ht.trans hrest
    rw [Edit.after_bind_ok hrun]
    exact hboth
  obtain ⟨hmarks, hsame⟩ := endGroup_marks hopen hbody
  rw [Bool.and_true, ← hsame] at hmarks
  exact hmarks

/-- The brace lasts unless the rule for the indentation fails. -/
theorem closeBrace_marks (indenter : Indenter Failure) :
    Marks (succeeded (closeBrace indenter s)) s ((closeBrace indenter).after s) := by
  refine atomic_bind_marks hopen (insertText_completes (Nat.succ_pos _) _) fun _ => ?_
  refine marks_composable.bind marks_composable.get fun _ => Composable.ite _ ?_ ?_
  · refine marks_composable.bind (marks_composable.levelAt indenter _) fun _ => ?_
    exact fun _ hinner => ⟨_, (indentLine_completes hinner _).after⟩
  · exact marks_composable.pure ()

omit hopen in
theorem levelAt_run (indenter : Indenter Failure) (line : Int) (s : Editor) :
    levelAt indenter line s =
      match indenter.levelAt s.document line with
      | .ok level => .ok level s
      | .error e => .error e s := by
  change (match indenter.levelAt s.document line with
    | .ok level => (pure level : Edit Int)
    | .error e => throw e) s = _
  cases indenter.levelAt s.document line <;> rfl

omit hopen in
theorem indentCurrentLine_run (indenter : Indenter Failure) (s : Editor) :
    indentCurrentLine indenter s =
      match indenter.levelAt s.document s.document.cursor.line with
      | .ok level => (atomic (indentLine (level : Rat)) >>= fun _ => pure level) s
      | .error e => .error e s := by
  change (levelAt indenter s.document.cursor.line >>= fun level =>
    atomic (indentLine (level : Rat)) >>= fun _ => pure level) s = _
  have hlevel := levelAt_run indenter s.document.cursor.line s
  cases hrule : indenter.levelAt s.document s.document.cursor.line with
  | ok level =>
    rw [hrule] at hlevel
    exact Edit.bind_ok hlevel _
  | error e =>
    rw [hrule] at hlevel
    exact Edit.bind_error hlevel _

/-- Indenting the current line fails before it changes anything, or goes through. -/
theorem indentCurrentLine_in_group (indenter : Indenter Failure) :
    (∃ e, indentCurrentLine indenter s = .error e s)
      ∨ ∃ (level : Int) (t : Editor), indentCurrentLine indenter s = .ok level t
        ∧ t.document = s.document.indentLine level
        ∧ Marks (t.document.lines != s.document.lines) s t := by
  rw [indentCurrentLine_run]
  cases indenter.levelAt s.document s.document.cursor.line with
  | error e => exact .inl ⟨e, rfl⟩
  | ok level =>
    let t := { s with
      document := s.document.indentLine level
      dirty := s.dirty || (s.document.indentLine level).lines != s.document.lines }
    have hbody : indentLine level s.openGroup = .ok () t.openGroup :=
      indentLine_in_group (Nat.succ_ne_zero _) level
    have hatomic : atomic (indentLine level) s = .ok () t :=
      atomic_in_group hopen hbody ⟨rfl, rfl, rfl⟩
    refine .inr ⟨level, t, Edit.bind_ok hatomic _, rfl, ⟨rfl, rfl, rfl⟩, rfl, ?_⟩
    exact fun hsame => bne_eq_false_iff_eq.mp hsame

theorem indentCurrentLine_marks (indenter : Indenter Failure) :
    let t := (indentCurrentLine indenter).after s
    Marks (t.document.lines != s.document.lines) s t := by
  unfold Edit.after
  rcases indentCurrentLine_in_group hopen indenter with ⟨e, hrun⟩ | ⟨level, t, hrun, -, ht⟩
  · simp only [hrun, finalEditor, bne_self_eq_false]
    exact .refl s
  · rw [hrun]
    exact ht

end Commands

/-! ## Indenting every line -/

theorem after_reindentFrom_solid {indenter : Indenter Failure} {line : Nat} {t : Text}
    (hsolid : ¬ Line.isBlank t = true) (ts : List Text) (s : Editor) :
    (reindentFrom indenter line (t :: ts)).after s =
      match indentCurrentLine indenter { s with document := s.document.moveTo ⟨line, 0⟩ } with
      | .ok _ u => (reindentFrom indenter (line + 1) ts).after u
      | .error _ u => u := by
  have hcursor : setCursor ⟨line, 0⟩ s
      = .ok () { s with document := s.document.moveTo ⟨line, 0⟩ } := rfl
  rw [reindentFrom, if_neg hsolid, Edit.after_bind_ok hcursor]
  cases hrun : indentCurrentLine indenter
    { s with document := s.document.moveTo ⟨line, 0⟩ } with
  | error e u => exact Edit.after_bind_error hrun _
  | ok level u =>
    rw [Edit.after_bind_ok hrun]
    exact Edit.after_bind_pure (reindentFrom indenter (line + 1) ts) _ u

/-- Changes apart from each other do not undo each other. -/
theorem bne_or_bne {xs ys zs : List Text} {n : Nat} (hbehind : ys.drop n = xs.drop n)
    (hbefore : zs.take n = ys.take n) : ((ys != xs) || (zs != ys)) = (zs != xs) := by
  by_cases hfirst : ys = xs
  · rw [hfirst, bne_self_eq_false, Bool.false_or]
  · have hboth : zs ≠ xs := by
      rintro rfl
      apply hfirst
      rw [← List.take_append_drop n ys, ← hbefore, hbehind, List.take_append_drop]
    rw [bne_iff_ne.mpr hfirst, bne_iff_ne.mpr hboth, Bool.true_or]

/-- The loop visits a line once and leaves it behind, so a change of a line is not undone
by a later one. -/
theorem reindentFrom_marks (indenter : Indenter Failure) (ts : List Text) (line : Nat)
    {s : Editor} (hopen : 0 < s.depth) (hroom : line + ts.length ≤ s.document.lines.length) :
    let t := (reindentFrom indenter line ts).after s
    Marks (t.document.lines != s.document.lines) s t
      ∧ t.document.lines.take line = s.document.lines.take line := by
  induction ts generalizing line s with
  | nil =>
    change Marks (s.document.lines != s.document.lines) s s ∧ _
    rw [bne_self_eq_false]
    exact ⟨.refl s, rfl⟩
  | cons t ts ih =>
    rw [List.length_cons] at hroom
    have hshorter : ∀ {xs ys : List Text}, xs.take (line + 1) = ys.take (line + 1) →
        xs.take line = ys.take line := by
      intro xs ys h
      have hcut := congrArg (List.take line) h
      rwa [List.take_take, List.take_take, Nat.min_eq_left (Nat.le_succ line)] at hcut
    by_cases hblank : Line.isBlank t = true
    · obtain ⟨hmarks, habove⟩ := ih (line + 1) hopen (by omega)
      rw [reindentFrom, if_pos hblank]
      exact ⟨hmarks, hshorter habove⟩
    · rw [after_reindentFrom_solid hblank]
      obtain ⟨_, moved, hcursor, hmoved⟩ := setCursor_completes ⟨line, 0⟩ s
      cases hcursor
      rcases indentCurrentLine_in_group (s := { s with document := s.document.moveTo ⟨line, 0⟩ })
        hopen indenter with ⟨e, hrun⟩ | ⟨level, u, hrun, hdocument, hu⟩
      · simp only [hrun, Document.lines_moveTo, bne_self_eq_false, and_true]
        exact hmoved
      · obtain ⟨hbefore, hbehind⟩ := Document.lines_indentLine_apart
          (s.document.moveTo ⟨line, 0⟩) level
        rw [Document.moveTo_line (by omega), ← hdocument, Document.lines_moveTo] at hbefore hbehind
        simp only [hrun]
        have hlength : u.document.lines.length = s.document.lines.length := by
          rw [hdocument]
          exact List.length_set
        obtain ⟨hrest, habove⟩ := ih (line + 1) (hu.depth.symm ▸ hopen) (by omega)
        refine ⟨?_, (hshorter habove).trans hbefore⟩
        rw [← bne_or_bne hbehind habove]
        exact (hmoved.trans hu).trans hrest

theorem reindent_marks {s : Editor} (hopen : 0 < s.depth) (indenter : Indenter Failure) :
    let t := (reindent indenter).after s
    Marks (t.document.lines != s.document.lines) s t := by
  have hafter : (reindent indenter).after s
      = (reindentFrom indenter 0 s.document.lines).after s := by
    unfold Edit.after reindent
    rw [Edit.bind_ok (show (get : Edit Editor) s = .ok s s from rfl)]
    cases hrun : reindentFrom indenter 0 s.document.lines s with
    | ok changed t =>
      rw [Edit.bind_ok hrun]
      rfl
    | error e t =>
      rw [Edit.bind_error hrun]
      rfl
  rw [hafter]
  exact (reindentFrom_marks indenter s.document.lines 0 hopen (by omega)).1

end Editor

/-! ## Operations and actions -/

/-- Whether an operation on `s` changes a line for good: a text that is inserted and not
empty, a line break, and an indentation that the line does not have already. -/
def Operation.changes (indenter : Indenter Failure) (s : Editor) : Operation → Bool
  | .insertText t => !t.isEmpty
  | .insertLineBreak => true
  | .indentLine target => (s.document.indentLine target).lines != s.document.lines
  -- A command does so through such edits in groups of its own; it indents a line only once.
  | .newline _ => true
  | .newlineCommand => true
  | .closeBrace rule => succeeded (Editor.closeBrace rule s)
  | .closeBraceCommand => succeeded (Editor.closeBrace indenter s)
  | .indentCommand =>
    ((Editor.indentCurrentLine indenter).after s).document.lines != s.document.lines
  | .reindent => ((Editor.reindent indenter).after s).document.lines != s.document.lines
  | _ => false

/-- The operation runs groups of its own. -/
def Operation.isCommand : Operation → Bool
  | .newline _ | .newlineCommand | .closeBrace _ | .closeBraceCommand | .indentCommand
  | .reindent => true
  | _ => false

/-- Outside a group as well, what does not change a line is not announced. -/
theorem Operation.marks_of_idle {indenter : Indenter Failure} {s : Editor} {operation : Operation}
    (hsingle : operation.isCommand = false) (hidle : operation.changes indenter s = false) :
    Editor.Marks false s ((operation.run indenter).after s) := by
  cases operation with
  | look | lineCount | lineText | text | fail | lineStart | offset | textBeforeCursor
  | previousNonBlank | level | previousDefinition | nextOpening | closing | toDefinitionStart
  | toBlockEnd | outline => exact .refl s
  | setCursor | subscribe | unsubscribe =>
    exact ⟨⟨rfl, rfl, rfl⟩, (Bool.or_false _).symm, fun _ => rfl⟩
  | jumpToStart | jumpToEnd =>
    rw [Operation.run, Edit.after_give]
    exact Editor.follow_marks _ _ s
  | insertText t =>
    have hempty : t.isEmpty = true := by simpa [Operation.changes] using hidle
    rw [Operation.run, Edit.after_give, Editor.insertText_eq, if_pos hempty]
    exact .refl s
  | insertLineBreak => cases hidle
  | indentLine target =>
    have hsame : (s.document.indentLine target).lines = s.document.lines :=
      bne_eq_false_iff_eq.mp hidle
    rw [Operation.run, Edit.after_give, Edit.after, Editor.indentLine_eq, if_pos hsame]
    exact ⟨⟨rfl, rfl, rfl⟩, (Bool.or_false _).symm, fun _ => hsame⟩
  | newline | newlineCommand | closeBrace | closeBraceCommand | indentCommand
  | reindent => cases hsingle

theorem Operation.marks {s : Editor} (hopen : 0 < s.depth) (indenter : Indenter Failure)
    (operation : Operation) :
    Editor.Marks (operation.changes indenter s) s ((operation.run indenter).after s) := by
  cases operation with
  | insertText t =>
    rw [Operation.run, Edit.after_give]
    exact (Editor.insertText_completes hopen t).after
  | insertLineBreak =>
    rw [Operation.run, Edit.after_give]
    exact (Editor.mutate_completes hopen _).after
  | indentLine target =>
    rw [Operation.run, Edit.after_give]
    exact (Editor.indentLine_completes hopen target).after
  | newline unit =>
    rw [Operation.run, Edit.after_give]
    exact (Editor.newline_completes hopen unit).after
  | newlineCommand =>
    rw [Operation.run, Edit.after_give]
    exact Editor.newlineCommand_marks hopen indenter
  | closeBrace rule =>
    rw [Operation.run, Edit.after_give]
    exact Editor.closeBrace_marks hopen rule
  | closeBraceCommand =>
    rw [Operation.run, Edit.after_give]
    exact Editor.closeBrace_marks hopen indenter
  | indentCommand =>
    rw [Operation.run, Edit.after_give]
    exact Editor.indentCurrentLine_marks hopen indenter
  | reindent =>
    rw [Operation.run, Edit.after_give]
    exact Editor.reindent_marks hopen indenter
  | _ => exact Operation.marks_of_idle rfl rfl

mutual

/-- Whether an action changes a line for good. What a group did lasts only if the group goes
through. -/
def Action.lasts (s : Session) : Action → Bool
  | .perform operation => operation.changes s.indenter s.editor
  | .atomic actions _ =>
    (s.bodyFailure? actions).isNone && anyLasts { s with editor := s.editor.openGroup } actions
  | .attempt actions => anyLasts s actions

/-- Whether one of the actions does, up to the first that fails. -/
def anyLasts (s : Session) : List Action → Bool
  | [] => false
  | action :: actions =>
    action.lasts s || match (action.run s).1.outcome with
      | .ok _ => anyLasts (action.run s).2 actions
      | .error _ => false

end

theorem Session.succeeded_outcome (s : Session) (failure? : Option Failure) :
    succeeded (s.outcome failure?) = failure?.isNone := by
  cases failure? <;> rfl

mutual

theorem Action.marks (s : Session) (hopen : 0 < s.editor.depth) :
    (a : Action) → Editor.Marks (a.lasts s) s.editor (a.run s).2.editor
  | .perform operation => by
    simp only [Action.run, Session.recorded, Session.conclude_editor, Action.lasts]
    exact operation.marks hopen s.indenter
  | .atomic actions result => by
    have hbody := marksAll { s with editor := s.editor.openGroup } (Nat.succ_pos _) actions
    simp only [Action.run, Session.recorded, Session.conclude_editor, Action.lasts]
    rw [Session.bodyFailure?, ← Session.succeeded_outcome]
    refine (Editor.endGroup_marks hopen ?_).1
    rw [Session.outcome_editor]
    exact hbody
  | .attempt actions => by
    have hbody := marksAll s hopen actions
    simp only [Action.run, Session.recorded, Action.lasts]
    exact hbody

theorem marksAll (s : Session) (hopen : 0 < s.editor.depth) :
    (as : List Action) → Editor.Marks (anyLasts s as) s.editor (runGroup s as).2.2.editor
  | [] => .refl _
  | a :: as => by
    have hfirst := Action.marks s hopen a
    simp only [runGroup, anyLasts]
    cases houtcome : (a.run s).1.outcome with
    | error e =>
      simp only [Bool.or_false]
      exact hfirst
    | ok answer => exact hfirst.trans (marksAll _ (hfirst.depth.symm ▸ hopen) as)

end

end JadeEditor
