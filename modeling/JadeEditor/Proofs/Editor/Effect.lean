import JadeEditor.Editor.Transcript

/-!
# Effects of edits

What an edit did to the editor stays when it fails, so a law about edits speaks of
the editor that is left behind either way. A law that relates the editors before
and after is kept by every operation, and by every script, as soon as it is kept by
the few steps that operations are made of; those are listed in `Stable`.
-/

namespace JadeEditor

set_option autoImplicit false

variable {α β : Type}

/-- The editor a result leaves behind. -/
def finalEditor : EStateM.Result Failure Editor α → Editor
  | .ok _ s => s
  | .error _ s => s

@[simp] theorem finalEditor_ok (a : α) (s : Editor) :
    finalEditor (.ok a s : EStateM.Result Failure Editor α) = s := rfl

namespace Edit

def after (edit : Edit α) (s : Editor) : Editor := finalEditor (edit s)

/-- The edit relates every editor it starts from to the one it leaves behind. -/
def Keeps (R : Editor → Editor → Prop) (edit : Edit α) : Prop := ∀ s, R s (edit.after s)

theorem bind_ok {x : Edit α} {s t : Editor} {a : α} (h : x s = .ok a t) (f : α → Edit β) :
    (x >>= f) s = f a t := by
  simp only [bind, EStateM.bind, h]

theorem exists_of_bind_ok {x : Edit α} {f : α → Edit β} {s u : Editor} {b : β}
    (h : (x >>= f) s = .ok b u) : ∃ a t, x s = .ok a t ∧ f a t = .ok b u := by
  simp only [bind, EStateM.bind] at h
  cases hx : x s with
  | ok a t =>
    rw [hx] at h
    exact ⟨a, t, rfl, h⟩
  | error e t =>
    rw [hx] at h
    cases h

theorem bind_error {x : Edit α} {s t : Editor} {e : Failure} (h : x s = .error e t)
    (f : α → Edit β) : (x >>= f) s = .error e t := by
  simp only [bind, EStateM.bind, h]

theorem after_bind_ok {x : Edit α} {s t : Editor} {a : α} (h : x s = .ok a t) (f : α → Edit β) :
    (x >>= f).after s = (f a).after t :=
  congrArg finalEditor (bind_ok h f)

theorem after_bind_error {x : Edit α} {s t : Editor} {e : Failure} (h : x s = .error e t)
    (f : α → Edit β) : (x >>= f).after s = t :=
  congrArg finalEditor (bind_error h f)

theorem after_bind_pure (x : Edit α) (f : α → β) (s : Editor) :
    (x >>= fun a => pure (f a)).after s = x.after s := by
  unfold after
  cases hx : x s with
  | ok a t =>
    rw [bind_ok hx]
    rfl
  | error e t =>
    rw [bind_error hx]
    rfl

theorem after_give (f : α → Answer) (edit : Edit α) (s : Editor) :
    (Operation.give f edit).after s = edit.after s :=
  after_bind_pure edit f s

end Edit

namespace Editor

/-! ## What single edits do -/

/-- The editor with a change of its document that is still to be announced. -/
def pending (s : Editor) (d : Document) : Editor := { s with document := d, dirty := true }

theorem mutateWith_eq (announce : Edit Unit) (change : Document → Document) (s : Editor) :
    mutateWith announce change s =
      if s.depth = 0 then announce (s.pending (change s.document))
      else .ok () (s.pending (change s.document)) := rfl

theorem insertText_eq (t : Text) :
    insertText t = if t.isEmpty then pure () else mutate (·.insert t) := rfl

theorem indentLine_eq (level : Rat) (s : Editor) :
    indentLine level s =
      if (s.document.indentLine level).lines = s.document.lines then
        .ok () { s with document := s.document.indentLine level }
      else mutate (fun _ => s.document.indentLine level) s := rfl

/-- Inside a group a change is marked as pending and not announced. -/
theorem indentLine_in_group {s : Editor} (hopen : s.depth ≠ 0) (level : Rat) :
    indentLine level s = .ok ()
      { s with
        document := s.document.indentLine level
        dirty := s.dirty || (s.document.indentLine level).lines != s.document.lines } := by
  rw [indentLine_eq]
  split
  · rename_i hsame
    rw [hsame, bne_self_eq_false, Bool.or_false]
  · rename_i hdiffers
    rw [bne_iff_ne.mpr hdiffers, Bool.or_true]
    exact if_neg hopen

theorem follow_leaves (command : Text) (travel : Travel) (s : Editor) :
    ∃ log, follow command travel s
      = .ok travel { s with document := s.document.moveTo travel.position, log } := by
  unfold follow
  cases travel.outcome with
  | done => exact ⟨_, rfl⟩
  | exhausted => exact ⟨_, rfl⟩
  | unbalanced => exact ⟨_, rfl⟩

theorem closeGroup_eq (s : Editor) :
    closeGroup s = if s.depth - 1 = 0 then flush { s with depth := s.depth - 1 }
      else .ok () { s with depth := s.depth - 1 } := rfl

theorem endGroup_ok (before : Editor) (a : α) (s : Editor) :
    endGroup before (.ok a s) =
      match closeGroup s with
      | .ok _ s => .ok a s
      | .error e s => .error e s := rfl

theorem endGroup_error (before : Editor) (e : Failure) (s : Editor) :
    endGroup before (.error e s : EStateM.Result Failure Editor α) =
      match closeGroup (restore before s) with
      | .ok _ s => .error e s
      | .error e s => .error e s := rfl

theorem atomic_eq (edit : Edit α) (s : Editor) :
    atomic edit s = endGroup s (edit s.openGroup) := rfl

/-- A group ends like the closing of the editor its body left, taken back if the body
failed. -/
theorem finalEditor_endGroupWith (announce : Edit Unit) (before : Editor)
    (r : EStateM.Result Failure Editor α) :
    finalEditor (endGroupWith announce before r) =
      match r with
      | .ok _ s => (closeGroupWith announce).after s
      | .error _ s => (closeGroupWith announce).after (restore before s) := by
  cases r with
  | ok a s =>
    simp only [endGroupWith, Edit.after]
    cases closeGroupWith announce s <;> rfl
  | error e s =>
    simp only [endGroupWith, Edit.after]
    cases closeGroupWith announce (restore before s) <;> rfl

theorem finalEditor_endGroup (before : Editor) (r : EStateM.Result Failure Editor α) :
    finalEditor (endGroup before r) =
      match r with
      | .ok _ s => closeGroup.after s
      | .error _ s => closeGroup.after (restore before s) :=
  finalEditor_endGroupWith flush before r

theorem attempt_eq (edit : Edit Unit) (s : Editor) : attempt edit s = .ok () (edit.after s) := by
  unfold attempt Edit.after
  cases edit s <;> rfl

/-! ## What calls do -/

theorem call_eq (announce : Edit Unit) (l : Listener) (s : Editor) :
    call announce l s =
      (l.reaction.habit.run l >>= fun _ => l.reaction.turn.run announce) (s.heard l) := rfl

theorem callAll_cons (announce : Edit Unit) (key : Nat) (keys : List Nat) (s : Editor) :
    callAll announce (key :: keys) s =
      match s.listener? key with
      | none => callAll announce keys s
      | some l => (call announce l >>= fun _ => callAll announce keys) s := by
  rw [callAll]
  change (match s.listener? key with
    | none => callAll announce keys
    | some l => call announce l >>= fun _ => callAll announce keys) s = _
  cases s.listener? key <;> rfl

theorem mem_of_listener? {s : Editor} {key : Nat} {l : Listener} (h : s.listener? key = some l) :
    l ∈ s.listeners := List.mem_of_find?_eq_some h

end Editor

/-- A relation that sequences of steps keep when the single steps do. -/
structure Composable (R : Editor → Editor → Prop) : Prop where
  refl : ∀ s, R s s
  trans : ∀ {s t u}, R s t → R t u → R s u

namespace Composable

open Edit

variable {R : Editor → Editor → Prop}

theorem pure (h : Composable R) (a : α) : Keeps R (pure a : Edit α) := h.refl

theorem throw (h : Composable R) (e : Failure) : Keeps R (throw e : Edit α) := h.refl

theorem get (h : Composable R) : Keeps R (get : Edit Editor) := h.refl

theorem bind_after (h : Composable R) {r s : Editor} {x : Edit α} {f : α → Edit β}
    (hx : R r (x.after s)) (hf : ∀ a, Keeps R (f a)) : R r ((x >>= f).after s) := by
  unfold after at hx ⊢
  cases hr : x s with
  | ok a t =>
    rw [bind_ok hr]
    rw [hr] at hx
    exact h.trans hx (hf a t)
  | error e t =>
    rw [bind_error hr]
    rw [hr] at hx
    exact hx

theorem bind (h : Composable R) {x : Edit α} {f : α → Edit β} (hx : Keeps R x)
    (hf : ∀ a, Keeps R (f a)) : Keeps R (x >>= f) :=
  fun s => h.bind_after (hx s) hf

/-- From the end of the first edit on. -/
theorem after_left (h : Composable R) (x : Edit α) {f : α → Edit β} (hf : ∀ a, Keeps R (f a))
    (s : Editor) : R (x.after s) ((x >>= f).after s) := by
  cases hr : x s with
  | ok a t =>
    rw [after_bind_ok hr, after, hr]
    exact hf a t
  | error e t =>
    rw [after_bind_error hr, after, hr]
    exact h.refl t

theorem ite (c : Prop) [Decidable c] {x y : Edit α} (hx : Keeps R x) (hy : Keeps R y) :
    Keeps R (if c then x else y) := by
  split
  · exact hx
  · exact hy

theorem give (h : Composable R) (f : α → Answer) {edit : Edit α} (hedit : Keeps R edit) :
    Keeps R (Operation.give f edit) :=
  h.bind hedit fun _ => h.pure _

theorem attempt {edit : Edit Unit} (hedit : Keeps R edit) :
    Keeps R (Editor.attempt edit) := by
  intro s
  rw [after, Editor.attempt_eq]
  exact hedit s

/-- A round keeps what the call of each live listener keeps. -/
theorem callAll (h : Composable R) {announce : Edit Unit}
    (hcall : ∀ s : Editor, ∀ l ∈ s.listeners, R s ((Editor.call announce l).after s))
    (keys : List Nat) : Keeps R (Editor.callAll announce keys) := by
  induction keys with
  | nil => exact h.pure ()
  | cons key keys ih =>
    intro s
    unfold after
    rw [Editor.callAll_cons]
    split
    · exact ih s
    · rename_i l hl
      exact h.bind_after (hcall s l (Editor.mem_of_listener? hl)) fun _ => ih

theorem levelAt (h : Composable R) (indenter : Indenter Failure) (line : Int) :
    Keeps R (Editor.levelAt indenter line) := by
  refine h.bind h.get fun s => ?_
  split
  · exact h.pure _
  · exact h.throw _

section Lines

variable (hindent : ∀ level, Keeps R (Editor.atomic (Editor.indentLine level)))
include hindent

theorem indentCurrentLine (h : Composable R) (indenter : Indenter Failure) :
    Keeps R (Editor.indentCurrentLine indenter) :=
  h.bind h.get fun _ => h.bind (h.levelAt indenter _) fun _ =>
    h.bind (hindent _) fun _ => h.pure _

/-- Indenting every line keeps what moves of the cursor and the change of a line keep. -/
theorem reindent (h : Composable R) (hcursor : ∀ p, Keeps R (Editor.setCursor p))
    (indenter : Indenter Failure) : Keeps R (Editor.reindent indenter) := by
  have lines : ∀ (ts : List Text) (line : Nat), Keeps R (Editor.reindentFrom indenter line ts) := by
    intro ts
    induction ts with
    | nil => exact fun _ => h.pure _
    | cons t ts ih =>
      intro line
      refine ite _ (ih _) (h.bind (hcursor _) fun _ => ?_)
      refine h.bind (h.indentCurrentLine hindent indenter) fun _ => ?_
      exact h.bind h.get fun _ => h.bind (ih _) fun _ => h.pure _
  exact h.bind h.get fun s => h.bind (lines _ _) fun _ => h.bind h.get fun _ => h.pure _

end Lines

end Composable

/-- A relation that none of the edits breaks that a listener makes. A group keeps it if its
body does, started inside the group. -/
structure Editing (announce : Edit Unit) (R : Editor → Editor → Prop) : Prop
    extends Composable R where
  setCursor : ∀ p, Edit.Keeps R (Editor.setCursor p)
  unsubscribe : ∀ s name, R s (s.unsubscribe name)
  insert : ∀ t, Edit.Keeps R (Editor.mutateWith announce (·.insert t))
  breakLine : Edit.Keeps R (Editor.mutateWith announce Document.breakLine)
  indentLine : ∀ level, Edit.Keeps R (Editor.indentLineWith announce level)
  group : ∀ {α : Type} (s : Editor) (r : EStateM.Result Failure Editor α),
    R s.openGroup (finalEditor r) → R s (finalEditor (Editor.endGroupWith announce s r))

namespace Editing

open Edit

variable {announce : Edit Unit} {R : Editor → Editor → Prop} (h : Editing announce R)
include h

theorem insertText (t : Text) : Keeps R (Editor.insertTextWith announce t) :=
  Composable.ite _ (h.pure ()) (h.insert t)

theorem atomic {edit : Edit α} (hedit : Keeps R edit) :
    Keeps R (Editor.atomicWith announce edit) :=
  fun s => h.group s (edit s.openGroup) (hedit s.openGroup)

theorem stroke (stroke : Stroke) : Keeps R (stroke.run announce) := by
  cases stroke with
  | moveTo p => exact h.setCursor p
  | insertText t => exact h.insertText t
  | insertLineBreak => exact h.breakLine
  | indentLine level => exact h.indentLine level
  | unsubscribe name => exact fun s => h.unsubscribe s name

/-- What a listener does on its turn keeps the relation, however deep its groups are nested. -/
theorem turn (turn : Turn) : Keeps R (turn.run announce) := by
  induction turn with
  | done => exact h.pure ()
  | fail failure => exact h.throw failure
  | stroke s rest ih => exact h.bind (h.stroke s) fun _ => ih
  | atomic body rest ihbody ih => exact h.bind (h.atomic ihbody) fun _ => ih
  | attempt body rest ihbody ih => exact h.bind (Composable.attempt ihbody) fun _ => ih

end Editing

/-- A relation that none of the steps operations are made of breaks. -/
structure Stable (R : Editor → Editor → Prop) : Prop extends Editing Editor.flush R where
  say : ∀ s message, R s (s.say message)
  subscribe : ∀ s name reaction, R s (s.subscribe name reaction)

theorem Stable.and {R S : Editor → Editor → Prop} (hR : Stable R) (hS : Stable S) :
    Stable fun s t => R s t ∧ S s t where
  refl s := ⟨hR.refl s, hS.refl s⟩
  trans hst htu := ⟨hR.trans hst.1 htu.1, hS.trans hst.2 htu.2⟩
  setCursor p s := ⟨hR.setCursor p s, hS.setCursor p s⟩
  say s message := ⟨hR.say s message, hS.say s message⟩
  subscribe s name reaction := ⟨hR.subscribe s name reaction, hS.subscribe s name reaction⟩
  unsubscribe s name := ⟨hR.unsubscribe s name, hS.unsubscribe s name⟩
  insert t s := ⟨hR.insert t s, hS.insert t s⟩
  breakLine s := ⟨hR.breakLine s, hS.breakLine s⟩
  indentLine level s := ⟨hR.indentLine level s, hS.indentLine level s⟩
  group s r h := ⟨hR.group s r h.1, hS.group s r h.2⟩

namespace Stable

open Edit

variable {R : Editor → Editor → Prop} (h : Stable R)
include h

theorem newline (unit : Int) : Keeps R (Editor.newline unit) := by
  refine h.bind h.get fun s => Composable.ite _ (h.atomic ?_) (h.atomic ?_)
  · refine h.bind h.breakLine fun _ => h.bind (h.indentLine _) fun _ => h.bind h.get fun _ => ?_
    refine h.bind h.breakLine fun _ => h.bind (h.indentLine _) fun _ => ?_
    exact h.bind (h.insertText _) fun _ => h.bind (h.setCursor _) fun _ => h.pure _
  · exact h.bind h.breakLine fun _ => h.bind (h.indentLine _) fun _ => h.pure _

theorem closeBrace (indenter : Indenter Failure) : Keeps R (Editor.closeBrace indenter) := by
  refine h.atomic (h.bind (h.insertText _) fun _ => h.bind h.get fun _ => ?_)
  refine Composable.ite _ ?_ (h.pure _)
  exact h.bind (h.levelAt indenter _) fun _ => h.indentLine _

theorem follow (command : Text) (travel : Travel) : Keeps R (Editor.follow command travel) := by
  refine h.bind (h.setCursor _) fun _ => ?_
  split
  · exact h.bind (h.pure _) fun _ => h.pure _
  · exact h.bind (fun s => h.say s _) fun _ => h.pure _
  · exact h.bind (fun s => h.say s _) fun _ => h.pure _

theorem operation (indenter : Indenter Failure) (operation : Operation) :
    Keeps R (operation.run indenter) := by
  have hindent := fun level => h.atomic (h.indentLine level)
  cases operation with
  -- Questions leave the editor alone.
  | look | lineCount | lineText | text | lineStart | offset | textBeforeCursor | previousNonBlank
  | level | previousDefinition | nextOpening | closing | toDefinitionStart | toBlockEnd
  | outline => exact h.refl
  | setCursor p => exact h.give _ (h.setCursor p)
  | insertText t => exact h.give _ (h.insertText t)
  | insertLineBreak => exact h.give _ h.breakLine
  | indentLine level => exact h.give _ (h.indentLine level)
  | fail reason => exact h.throw _
  | subscribe name reaction => exact h.give _ (fun s => h.subscribe s name reaction)
  | unsubscribe name => exact h.give _ (fun s => h.unsubscribe s name)
  | newline unit => exact h.give _ (h.newline unit)
  | closeBrace rule => exact h.give _ (h.closeBrace rule)
  | indentCommand => exact h.give _ (h.indentCurrentLine hindent indenter)
  | newlineCommand =>
    refine h.give _ (h.bind (h.newline _) fun _ => ?_)
    exact h.bind (fun s => h.say s _) fun _ => h.pure _
  | closeBraceCommand => exact h.give _ (h.closeBrace indenter)
  | jumpToStart count => exact h.give _ (h.bind h.get fun _ => h.follow _ _)
  | jumpToEnd count => exact h.give _ (h.bind h.get fun _ => h.follow _ _)
  | reindent => exact h.give _ (h.reindent hindent h.setCursor indenter)

end Stable

@[simp] theorem Session.conclude_editor (s : Session) (f : α → Answer)
    (r : EStateM.Result Failure Editor α) : (s.conclude f r).2.editor = finalEditor r := by
  cases r <;> rfl

@[simp] theorem Session.outcome_editor (s : Session) (failure? : Option Failure) :
    finalEditor (s.outcome failure?) = s.editor := by
  cases failure? <;> rfl

namespace Stable

variable {R : Editor → Editor → Prop}

mutual

/-- Every action keeps a stable relation, however deep its groups are nested. -/
theorem action (h : Stable R) (s : Session) : (a : Action) → R s.editor (a.run s).2.editor
  | .perform operation => by
    have hrun := h.operation s.indenter operation s.editor
    simp only [Action.run, Session.recorded, Session.conclude_editor]
    exact hrun
  | .atomic actions result => by
    have hbody := h.actions { s with editor := s.editor.openGroup } actions
    simp only [Action.run, Session.recorded, Session.conclude_editor]
    apply h.group
    rw [Session.outcome_editor]
    exact hbody
  | .attempt actions => by
    have hbody := h.actions s actions
    simp only [Action.run, Session.recorded]
    exact hbody

theorem actions (h : Stable R) (s : Session) :
    (as : List Action) → R s.editor (runGroup s as).2.2.editor
  | [] => h.refl _
  | a :: as => by
    have hfirst := h.action s a
    simp only [runGroup]
    split
    · exact hfirst
    · exact h.trans hfirst (h.actions _ as)

end

end Stable

end JadeEditor
