import JadeEditor.Proofs.Editor.Notification

/-!
# Reachable editors

The editors that can come up when scripts are run, those in the middle of a group
included. All of them are sound: the document is well-formed, subscriptions can be
told apart, and nothing is pending outside a group. The same is true, with the depth
counting the groups in progress, when the edits are not those of a script.
-/

namespace JadeEditor

set_option autoImplicit false

def Stroke.change : Stroke → Document → Document
  | .moveTo p, d => d.moveTo p
  | .insertText t, d => d.insert t
  | .insertLineBreak, d => d.breakLine
  | .indentLine level, d => d.indentLine level
  | .unsubscribe _, d => d

theorem Stroke.wellFormed_change (stroke : Stroke) {d : Document} (h : d.WellFormed) :
    (stroke.change d).WellFormed := by
  cases stroke with
  | moveTo p =>
    exact Document.wellFormed_moveTo (List.ne_nil_of_length_pos (Nat.zero_lt_of_lt h.1)) p
  | insertText t => exact Document.wellFormed_insert h t
  | insertLineBreak => exact Document.wellFormed_breakLine h
  | indentLine level => exact Document.wellFormed_indentLine h level
  | unsubscribe name => exact h

theorem Stroke.exists_operation (stroke : Stroke) : ∃ operation : Operation, ∀ indenter s,
    (operation.run indenter).after s = (stroke.run Editor.flush).after s := by
  cases stroke with
  | moveTo p => exact ⟨.setCursor p, fun _ => Edit.after_give _ _⟩
  | insertText t => exact ⟨.insertText t, fun _ => Edit.after_give _ _⟩
  | insertLineBreak => exact ⟨.insertLineBreak, fun _ => Edit.after_give _ _⟩
  | indentLine level => exact ⟨.indentLine level, fun _ => Edit.after_give _ _⟩
  | unsubscribe name => exact ⟨.unsubscribe name, fun _ => Edit.after_give _ _⟩

namespace Editor

/-- The editors of scripts: a fresh one, one after an action, and one inside a group
that has just been opened. -/
inductive Reachable : Editor → Prop where
  | start (lines : List Text) : Reachable (ofDocument (.ofLines lines))
  | act {s : Session} (a : Action) : Reachable s.editor → Reachable (a.run s).2.editor
  | enter {s : Editor} : Reachable s → Reachable s.openGroup

theorem Reachable.sound {s : Editor} (h : Reachable s) : s.Sound := by
  induction h with
  | start lines => exact sound_ofLines lines
  | act a _ ih => exact (steady_stable.action _ a ih).1
  | enter _ ih => exact ih.openGroup

theorem Reachable.subscribe {s : Editor} (h : Reachable s) (name : Text) (reaction : Reaction) :
    Reachable (s.subscribe name reaction) :=
  .act (s := ⟨s, .lookback defaultUnit, 0, 0⟩) (.perform (.subscribe name reaction)) h

theorem Reachable.runGroup {s : Session} (h : Reachable s.editor) (as : List Action) :
    Reachable (runGroup s as).2.2.editor := by
  induction as generalizing s with
  | nil => exact h
  | cons a as ih =>
    simp only [JadeEditor.runGroup]
    split
    · exact h.act a
    · exact ih (h.act a)

/-! ## Edits in any order

A script fixes its edits beforehand. The editors below come up when whatever runs the edits
decides on each one as it goes, and catches failures where it likes. The listeners are among
those who do: each goes on from the editor on which it was called.
-/

/-- In the round that announces what is pending in `s`, the listener is called on `t`. -/
def Calls (s t : Editor) (l : Listener) : Prop :=
  s.dirty = true ∧ t.listener? l.key = some l ∧ ∃ keys more,
    s.listeners.map Listener.key = keys ++ l.key :: more
      ∧ callAll flush keys { s with dirty := false, version := s.version + 1 } = .ok () t

/-- The editor at the end of a group that was opened on `before`: a failure takes its changes
back. -/
def groupEnd {α : Type} (before : Editor) : EStateM.Result Failure Editor α → Editor
  | .ok _ s => s
  | .error _ s => restore before s

/-- The editors that come up while edits are made, by the host and by the listeners that are
called meanwhile, each with the editors on which the groups in progress were opened, the
innermost first. A group is left with the result of its body, be it a failure or not. -/
inductive Underway : List Editor → Editor → Prop where
  | start (lines : List Text) : Underway [] (ofDocument (.ofLines lines))
  | perform {groups : List Editor} {s : Editor} (indenter : Indenter Failure)
      (operation : Operation) :
      Underway groups s → Underway groups ((operation.run indenter).after s)
  | enter {groups : List Editor} {s : Editor} :
      Underway groups s → Underway (s :: groups) s.openGroup
  | leave {groups : List Editor} {before : Editor} (r : EStateM.Result Failure Editor Unit) :
      Underway (before :: groups) (finalEditor r) →
      Underway groups (finalEditor (endGroup before r))
  /-- A listener hears of a change that was made outside all groups. -/
  | hear {s t : Editor} {l : Listener} (stroke : Stroke) : Underway [] s →
      Calls (s.pending (stroke.change s.document)) t l →
      Underway [] (t.heard l)
  /-- A listener hears of the changes of a group. -/
  | hearGroup {before t : Editor} {l : Listener} (r : EStateM.Result Failure Editor Unit) :
      Underway [before] (finalEditor r) → Calls { groupEnd before r with depth := 0 } t l →
      Underway [] (t.heard l)

/-- Each group was opened on a sound editor, inside the groups behind it in the list. -/
def Nested : List Editor → Prop
  | [] => True
  | before :: groups => before.Sound ∧ before.depth = groups.length ∧ Nested groups

theorem Calls.resting {s t : Editor} {l : Listener} (hs : s.WellFormed) (hdepth : s.depth = 0)
    (h : Calls s t l) : t.Resting := by
  obtain ⟨-, -, keys, _, -, hround⟩ := h
  have hraised : { s with dirty := false, version := s.version + 1 }.Resting :=
    ⟨⟨hs.of_same hs.document rfl rfl, fun _ => rfl⟩, hdepth⟩
  have hrests := callAll_rests (settles _) keys hraised (Nat.le_refl _)
  rwa [Edit.after, hround, finalEditor_ok] at hrests

theorem Underway.sound {groups : List Editor} {s : Editor} (h : Underway groups s) :
    s.Sound ∧ s.depth = groups.length ∧ Nested groups := by
  induction h with
  | start lines => exact ⟨sound_ofLines lines, rfl, trivial⟩
  | perform indenter operation _ ih =>
    obtain ⟨hsound, hdepth, hnested⟩ := ih
    obtain ⟨hnext, hsame⟩ := steady_stable.operation indenter operation _ hsound
    exact ⟨hnext, hsame.trans hdepth, hnested⟩
  | enter _ ih =>
    obtain ⟨hsound, hdepth, hnested⟩ := ih
    exact ⟨hsound.openGroup, congrArg Nat.succ hdepth, hsound, hdepth, hnested⟩
  | @leave groups before r _ ih =>
    obtain ⟨hsound, hdepth, hbefore, houter, hnested⟩ := ih
    have hbody : Steady before.openGroup (finalEditor r) :=
      fun _ => ⟨hsound, hdepth.trans (congrArg Nat.succ houter.symm)⟩
    obtain ⟨hnext, hsame⟩ := steady_stable.group before r hbody hbefore
    exact ⟨hnext, hsame.trans houter, hnested⟩
  | @hear s t l stroke _ hcalls ih =>
    obtain ⟨hsound, hdepth, -⟩ := ih
    have hwell := stroke.wellFormed_change hsound.wellFormed.document
    have hpending : (s.pending (stroke.change s.document)).WellFormed :=
      hsound.wellFormed.of_same hwell rfl rfl
    have hheard := (hcalls.resting hpending hdepth).heard l
    exact ⟨hheard.toSound, hheard.depth, trivial⟩
  | @hearGroup before t l r _ hcalls ih =>
    obtain ⟨hsound, -, hbefore, -⟩ := ih
    have hend : (groupEnd before r).WellFormed := by
      cases r with
      | ok a s => exact hsound.wellFormed
      | error e s => exact hsound.wellFormed.of_same hbefore.wellFormed.document rfl rfl
    have hclosed : { groupEnd before r with depth := 0 }.WellFormed :=
      hend.of_same hend.document rfl rfl
    have hheard := (hcalls.resting hclosed rfl).heard l
    exact ⟨hheard.toSound, hheard.depth, trivial⟩

mutual

theorem Underway.action {groups : List Editor} {s : Session} (h : Underway groups s.editor) :
    (a : Action) → Underway groups (a.run s).2.editor
  | .perform operation => by
    simp only [Action.run, Session.recorded, Session.conclude_editor]
    exact h.perform s.indenter operation
  | .atomic actions result => by
    have hbody := Underway.actions (s := { s with editor := s.editor.openGroup }) h.enter actions
    simp only [Action.run, Session.recorded, Session.conclude_editor]
    apply Underway.leave
    rw [Session.outcome_editor]
    exact hbody
  | .attempt actions => by
    have hbody := h.actions actions
    simp only [Action.run, Session.recorded]
    exact hbody

theorem Underway.actions {groups : List Editor} {s : Session} (h : Underway groups s.editor) :
    (as : List Action) → Underway groups (JadeEditor.runGroup s as).2.2.editor
  | [] => h
  | a :: as => by
    have hfirst := h.action a
    simp only [JadeEditor.runGroup]
    split
    · exact hfirst
    · exact hfirst.actions as

end

theorem underway_composable (groups : List Editor) :
    Composable fun s t => Underway groups s → Underway groups t where
  refl _ := id
  trans hst htu h := htu (hst h)

theorem Underway.stroke {groups : List Editor} {s : Editor} (h : Underway groups s)
    (stroke : Stroke) : Underway groups ((stroke.run flush).after s) := by
  obtain ⟨operation, hsame⟩ := stroke.exists_operation
  rw [← hsame (.lookback defaultUnit) s]
  exact h.perform _ operation

theorem Underway.turn {groups : List Editor} {s : Editor} (h : Underway groups s) (turn : Turn) :
    Underway groups ((turn.run flush).after s) := by
  have hkeeps : ∀ groups, Edit.Keeps (fun s t => Underway groups s → Underway groups t)
      (turn.run flush) := by
    induction turn with
    | done => exact fun _ _ => id
    | fail failure => exact fun _ _ => id
    | stroke stroke rest ih =>
      exact fun groups => (underway_composable groups).bind (fun _ h => h.stroke stroke)
        fun _ => ih groups
    | atomic body rest ihbody ih =>
      intro groups
      refine (underway_composable groups).bind (fun s h => ?_) fun _ => ih groups
      exact .leave (body.run flush s.openGroup) (ihbody (s :: groups) _ h.enter)
    | attempt body rest ihbody ih =>
      exact fun groups => (underway_composable groups).bind (Composable.attempt (ihbody groups))
        fun _ => ih groups
  exact hkeeps groups s h

end Editor

theorem Document.WellFormed.contains_cursor {d : Document} (h : d.WellFormed) :
    d.Contains d.cursor.position := by
  obtain ⟨hline, hcolumn⟩ := h
  have hnot : ¬ (d.cursor.line : Int) < 0 := by omega
  have htext : d.lineText d.cursor.line = d.currentLine := by
    rw [Document.lineText, if_neg hnot, Int.toNat_natCast, Document.currentLine]
  simp only [Document.Contains, Cursor.position, htext]
  omega

/-- Whatever edits are made, by the host or by listeners, in whatever nesting and however they
fail, there is a line, the cursor is in range, the depth is the number of groups in progress, and
outside all groups nothing is pending. The actions of a script and the turns of a listener lead
to no other editors. -/
theorem underway_editor_is_intact {groups : List Editor} {s : Editor}
    (h : Editor.Underway groups s) :
    s.document.lines ≠ [] ∧ s.document.Contains s.document.cursor.position
      ∧ s.depth = groups.length ∧ (groups = [] → s.dirty = false)
      ∧ (∀ (t : Session) (a : Action), t.editor = s → Editor.Underway groups (a.run t).2.editor)
      ∧ ∀ turn : Turn, Editor.Underway groups ((turn.run Editor.flush).after s) := by
  obtain ⟨hsound, hdepth, -⟩ := h.sound
  have hwell := hsound.wellFormed.document
  refine ⟨List.ne_nil_of_length_pos (Nat.zero_lt_of_lt hwell.1), hwell.contains_cursor, hdepth,
    ?_, ?_, h.turn⟩
  · rintro rfl
    exact hsound.settled hdepth
  · rintro t a rfl
    exact h.action a

/-- A listener that answers a line break with a text, which another one refuses; it catches the
refusal, breaks off a group of its own, dismisses the other one, edits again and then fails. -/
theorem intact_behind_refusal :
    let body : Turn := .stroke .insertLineBreak (.fail (.raised (utf16 "no")))
    let turn : Turn := .attempt (.stroke (.insertText (utf16 "x\n")) .done)
      (.attempt (.atomic body .done) (.stroke (.unsubscribe (utf16 "b"))
        (.stroke (.indentLine 2) (.fail (.raised (utf16 "no"))))))
    let d := Editor.ofDocument (.ofLines [])
    let s := (d.subscribe (utf16 "a") { turns := [turn] }).subscribe (utf16 "b") .refuse
    let t := (Operation.insertLineBreak.run (.lookback 4)).after s
    let u := { s with document := s.document.breakLine, version := 1 }.heard ⟨0, utf16 "a",
      { turns := [turn] }⟩
    t.version = 3 ∧ t.events.length = 4 ∧ t.listeners.length = 1
      ∧ t.document = ⟨[[], utf16 "x", utf16 "  "], ⟨2, 2⟩⟩
      ∧ t.document.Contains t.document.cursor.position ∧ t.dirty = false
      ∧ ((body.run Editor.flush).after u.openGroup).depth = 1 := by
  intro body turn d s t u
  have hs : Editor.Underway [] s := .perform (.lookback 4) (.subscribe (utf16 "b") .refuse)
    (.perform (.lookback 4) (.subscribe (utf16 "a") { turns := [turn] }) (.start []))
  have ht : Editor.Underway [] t := hs.perform (.lookback 4) .insertLineBreak
  obtain ⟨-, hcursor, -, hclean, -⟩ := underway_editor_is_intact ht
  -- The listener is called in the midst of the line break, and opens a group.
  have hu : Editor.Underway [] u := hs.hear .insertLineBreak ⟨rfl, rfl, [], [1], rfl, rfl⟩
  obtain ⟨-, -, -, -, -, hturn⟩ := underway_editor_is_intact hu.enter
  obtain ⟨-, -, hdepth, -⟩ := underway_editor_is_intact (hturn body)
  exact ⟨by decide +kernel, by decide +kernel, by decide +kernel, by decide +kernel, hcursor,
    hclean rfl, hdepth⟩

end JadeEditor
