import JadeEditor.Proofs.Editor.Reachable

/-!
# Groups that fail

Inside a group nothing is announced, so when the body of a group fails nobody has
seen what it did, and taking the document back undoes all of it. The main statement
says so for every reachable editor: the failure comes out unchanged, and document,
version, open groups, pending announcement and events are those of before. A group
around the failing one goes on from there if it catches the failure.
-/

namespace JadeEditor

set_option autoImplicit false

namespace Editor

/-- The version and what listeners have noted are the same, with as many groups open. -/
structure Unheard (s t : Editor) : Prop where
  depth : t.depth = s.depth
  version : t.version = s.version
  events : t.events = s.events

def Quiet (s t : Editor) : Prop := 0 < s.depth → Unheard s t

theorem Unheard.refl (s : Editor) : Unheard s s := ⟨rfl, rfl, rfl⟩

theorem mutate_quiet (change : Document → Document) : Edit.Keeps Quiet (mutate change) := by
  intro s hopen
  unfold Edit.after mutate
  rw [mutateWith_eq, if_neg (Nat.ne_of_gt hopen)]
  exact ⟨rfl, rfl, rfl⟩

theorem closeGroup_unheard {s t : Editor} (hopen : 0 < s.depth) (ht : Unheard s.openGroup t) :
    Unheard s (closeGroup.after t) := by
  have hdepth : t.depth - 1 = s.depth := by
    rw [ht.depth]
    rfl
  have hnested : t.depth - 1 ≠ 0 := by omega
  unfold Edit.after
  rw [closeGroup_eq, if_neg hnested]
  exact ⟨hdepth, ht.version, ht.events⟩

theorem quiet_stable : Stable Quiet where
  refl s _ := .refl s
  trans hst htu hopen := by
    have ht := hst hopen
    have hu := htu (ht.depth.symm ▸ hopen)
    exact ⟨hu.depth.trans ht.depth, hu.version.trans ht.version, hu.events.trans ht.events⟩
  setCursor _ _ _ := ⟨rfl, rfl, rfl⟩
  say _ _ _ := ⟨rfl, rfl, rfl⟩
  subscribe _ _ _ _ := ⟨rfl, rfl, rfl⟩
  unsubscribe _ _ _ := ⟨rfl, rfl, rfl⟩
  insert t := mutate_quiet _
  breakLine := mutate_quiet _
  indentLine level s hopen := by
    change Unheard s ((indentLine level).after s)
    unfold Edit.after
    rw [indentLine_eq]
    split
    · exact ⟨rfl, rfl, rfl⟩
    · exact mutate_quiet _ s hopen
  group s r hr hopen := by
    have hbody := hr (Nat.succ_pos _)
    rw [finalEditor_endGroupWith]
    cases r with
    | ok a t => exact closeGroup_unheard hopen hbody
    | error e t =>
      have hback : Unheard s.openGroup (restore s t) :=
        ⟨hbody.depth, hbody.version, hbody.events⟩
      exact closeGroup_unheard hopen hback

/-- Nothing can be told from the document, the version, the open groups, the pending
announcement or what listeners have noted. -/
structure Untouched (s t : Editor) : Prop extends Unheard s t where
  document : t.document = s.document
  dirty : t.dirty = s.dirty

/-- A group whose body failed unheard of ends in that failure and leaves no trace. -/
theorem endGroup_untouched {α : Type} {s t : Editor} (hs : s.Sound) (ht : Unheard s.openGroup t)
    (e : Failure) : ∃ u, endGroup s (.error e t : EStateM.Result Failure Editor α) = .error e u
      ∧ Untouched s u := by
  have hdepth : t.depth - 1 = s.depth := by
    rw [ht.depth]
    rfl
  let u := { restore s t with depth := t.depth - 1 }
  have hu : Untouched s u := ⟨⟨hdepth, ht.version, ht.events⟩, rfl, rfl⟩
  have hclose : closeGroup (restore s t) = .ok () u := by
    by_cases houter : t.depth - 1 = 0
    · -- Nothing was pending before the group, so nothing is announced behind it.
      have hclean : u.dirty = false := hs.settled (hdepth.symm.trans houter)
      exact (if_pos houter).trans (flush_of_clean hclean)
    · exact if_neg houter
  refine ⟨u, ?_, hu⟩
  rw [endGroup_error, hclose]

end Editor

/-- The failure that ends the body of a group opened now. -/
def Session.bodyFailure? (s : Session) (body : List Action) : Option Failure :=
  (runGroup { s with editor := s.editor.openGroup } body).2.1

theorem Action.run_atomic_of_failure {s : Session} (hs : s.editor.Sound) {body : List Action}
    {e : Failure} (h : s.bodyFailure? body = some e) (result : Data) :
    ((Action.atomic body result).run s).1.outcome = .error e
      ∧ Editor.Untouched s.editor ((Action.atomic body result).run s).2.editor := by
  have hquiet := Editor.quiet_stable.actions { s with editor := s.editor.openGroup } body
    (Nat.succ_pos _)
  obtain ⟨u, hend, hu⟩ := Editor.endGroup_untouched (α := Unit) hs hquiet e
  unfold Session.bodyFailure? at h
  simp only [Action.run, h, Session.outcome, Session.record, Session.recorded]
  rw [hend]
  exact ⟨rfl, hu⟩

theorem runGroup_append {s : Session} {more : List Action} (h : (runGroup s more).2.1 = none)
    (rest : List Action) :
    (runGroup s (more ++ rest)).2 = (runGroup (runGroup s more).2.2 rest).2 := by
  induction more generalizing s with
  | nil => rfl
  | cons a more ih =>
    simp only [List.cons_append, runGroup] at h ⊢
    split at h
    · exact absurd h (Option.some_ne_none _)
    · exact ih h

theorem runGroup_of_error {s : Session} {a : Action} {e : Failure}
    (h : (a.run s).1.outcome = .error e) (rest : List Action) :
    (runGroup s (a :: rest)).2 = (some e, (a.run s).2) := by
  simp only [runGroup, h]

/-- A group that fails comes out with the failure of its body and leaves no trace. Where
a failing group is caught, the actions around it go on from the editor it was started
on, with what they had changed and what they had pending. -/
theorem failing_group_leaves_no_trace {s : Session} (hs : s.editor.Reachable) :
    (s.editor.depth = 0 → s.editor.dirty = false)
    ∧ (∀ (body : List Action) (result : Data) (e : Failure), s.bodyFailure? body = some e →
      ((Action.atomic body result).run s).1.outcome = .error e
        ∧ Editor.Untouched s.editor ((Action.atomic body result).run s).2.editor)
    ∧ ∀ (more inner rest : List Action) (result : Data) (e : Failure),
      (runGroup s more).2.1 = none → (runGroup s more).2.2.bodyFailure? inner = some e →
      ((Action.attempt (more ++ .atomic inner result :: rest)).run s).1.outcome = .ok (.failure e)
        ∧ Editor.Untouched (runGroup s more).2.2.editor
          ((Action.attempt (more ++ .atomic inner result :: rest)).run s).2.editor := by
  refine ⟨hs.sound.settled, ?_, ?_⟩
  · intro body result e hbody
    exact Action.run_atomic_of_failure hs.sound hbody result
  · intro more inner rest result e hmore hinner
    obtain ⟨herror, huntouched⟩ :=
      Action.run_atomic_of_failure (hs.runGroup more).sound hinner result
    have hcaught : (runGroup s (more ++ .atomic inner result :: rest)).2
        = (some e, ((Action.atomic inner result).run (runGroup s more).2.2).2) :=
      (runGroup_append hmore _).trans (runGroup_of_error herror rest)
    constructor
    · simp only [Action.run, Session.record, hcaught]
    · simp only [Action.run, Session.recorded, hcaught]
      exact huntouched

/-- Inside a group with a listener waiting: the text typed before the inner group stays,
and the line break made in it is gone. -/
theorem inner_group_leaves_no_trace :
    let editor := (Editor.ofDocument (.ofLines [utf16 "ab"])).subscribe [] .watch
    let s : Session := ⟨editor.openGroup, .lookback 4, 0, 0⟩
    let more : List Action := [.perform (.insertText (utf16 "x"))]
    let inner : List Action := [.perform .insertLineBreak, .perform (.fail (utf16 "no"))]
    ((Action.atomic inner .null).run s).1.outcome = .error (.raised (utf16 "no"))
      ∧ ((Action.attempt (more ++ [.atomic inner .null])).run s).2.editor.document
        = ⟨[utf16 "xab"], ⟨0, 1⟩⟩ := by
  intro editor s more inner
  have hs : s.editor.Reachable :=
    .enter (.act (s := ⟨.ofDocument (.ofLines [utf16 "ab"]), .lookback 4, 0, 0⟩)
      (.perform (.subscribe [] .watch)) (.start _))
  obtain ⟨-, hfail, hcaught⟩ := failing_group_leaves_no_trace hs
  exact ⟨(hfail inner _ _ rfl).1, (hcaught more inner [] _ _ rfl rfl).2.document⟩

end JadeEditor
