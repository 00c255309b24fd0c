import JadeEditor.Proofs.Editor.Effect

/-!
# Nested rounds

What a round of notifications does to the listeners, the events and the version cannot be told
from the document, so a relation between these is kept by every edit as soon as it is kept by
the few steps a round is made of. The turns that are left are one instance: no edit of a
listener adds to them, and a call that brings a turn uses one up. The bound on the nesting of
rounds is therefore never reached, and the announcement of a change is a round in which the
edits of listeners are announced the same way.
-/

namespace JadeEditor

set_option autoImplicit false

variable {α β : Type}

/-- A relation that none of the steps a round of notifications is made of breaks. -/
structure RoundStable (R : Editor → Editor → Prop) : Prop extends Composable R where
  note : ∀ s e, R s (s.note e)
  dismiss : ∀ s name, R s (s.unsubscribe name)
  spend : ∀ s key, R s (s.spend key)
  raise : ∀ s, R s { s with version := s.version + 1 }
  /-- The document, the groups in progress and the mark do not matter. -/
  rearrange : ∀ s d n b, R s { s with document := d, depth := n, dirty := b }

namespace RoundStable

open Edit

variable {R : Editor → Editor → Prop} (h : RoundStable R) {announce : Edit Unit}
  (ha : Keeps R announce)
include h ha

theorem mutateWith (change : Document → Document) : Keeps R (Editor.mutateWith announce change) := by
  intro s
  have hchange := h.rearrange s (change s.document) s.depth true
  unfold after Editor.mutateWith
  by_cases hdepth : s.depth = 0
  · rw [if_pos hdepth]
    exact h.trans hchange (ha _)
  · rw [if_neg hdepth]
    exact hchange

theorem indentLineWith (level : Rat) : Keeps R (Editor.indentLineWith announce level) := by
  intro s
  unfold after Editor.indentLineWith
  dsimp only
  split
  · exact h.rearrange s (s.document.indentLine level) s.depth s.dirty
  · exact h.mutateWith ha _ s

theorem closeGroupWith : Keeps R (Editor.closeGroupWith announce) := by
  intro s
  have hclose := h.rearrange s s.document (s.depth - 1) s.dirty
  unfold after Editor.closeGroupWith
  by_cases houter : s.depth - 1 = 0
  · rw [if_pos houter]
    exact h.trans hclose (ha _)
  · rw [if_neg houter]
    exact hclose

theorem endGroupWith (before : Editor) (r : EStateM.Result Failure Editor α) :
    R (finalEditor r) (finalEditor (Editor.endGroupWith announce before r)) := by
  rw [Editor.finalEditor_endGroupWith]
  cases r with
  | ok a s => exact h.closeGroupWith ha s
  | error e s =>
    have hback := h.rearrange s before.document s.depth before.dirty
    exact h.trans hback (h.closeGroupWith ha _)

theorem editing : Editing announce R where
  toComposable := h.toComposable
  setCursor p s := h.rearrange s (s.document.moveTo p) s.depth s.dirty
  unsubscribe := h.dismiss
  insert _ := h.mutateWith ha _
  breakLine := h.mutateWith ha _
  indentLine := h.indentLineWith ha
  group s r hr :=
    have hopen := h.rearrange s s.document (s.depth + 1) s.dirty
    h.trans (h.trans hopen hr) (h.endGroupWith ha s r)

omit ha in
theorem habit (l : Listener) (habit : Habit) : Keeps R (habit.run l) := by
  intro s
  cases habit with
  | watch => exact h.refl s
  | refuse => exact h.refl s
  | dismiss target => exact h.dismiss s target
  | outline => exact h.note s _

omit ha in
theorem heard (s : Editor) (l : Listener) : R s (s.heard l) := h.trans (h.note s _) (h.spend _ _)

/-- From the moment the listener has noted its call. -/
theorem call_heard (l : Listener) (s : Editor) :
    R (s.heard l) ((Editor.call announce l).after s) :=
  h.bind (h.habit l _) (fun _ => (h.editing ha).turn l.reaction.turn) (s.heard l)

theorem call (l : Listener) : Keeps R (Editor.call announce l) :=
  fun s => h.trans (h.heard s l) (h.call_heard ha l s)

theorem round (keys : List Nat) : Keeps R (Editor.callAll announce keys) :=
  h.callAll (fun s l _ => h.call ha l s) keys

/-- The first listener is called whatever the others do. -/
theorem round_heard {s : Editor} {l : Listener} {ls : List Listener}
    (hfirst : s.listeners = l :: ls) :
    R (s.heard l) ((Editor.callAll announce (s.listeners.map Listener.key)).after s) := by
  have hlive : s.listener? l.key = some l := by simp [Editor.listener?, hfirst]
  unfold after
  rw [hfirst, List.map_cons, Editor.callAll_cons, hlive]
  exact h.bind_after (h.call_heard ha l s) fun _ => h.round ha _

theorem flushWith : Keeps R (Editor.flushWith announce) := by
  intro s
  by_cases hdirty : s.dirty = true
  · have hraised : R s { s with dirty := false, version := s.version + 1 } :=
      h.trans (h.rearrange s s.document s.depth false) (h.raise _)
    unfold after Editor.flushWith
    rw [if_pos hdirty]
    exact h.trans hraised (h.round ha _ _)
  · unfold after Editor.flushWith
    rw [if_neg hdirty]
    exact h.refl s

omit ha

theorem flushNested (fuel : Nat) : Keeps R (Editor.flushNested fuel) := by
  induction fuel with
  | zero => exact h.pure ()
  | succ fuel ih => exact h.flushWith ih

theorem flush : Keeps R Editor.flush := fun s => h.flushNested (s.budget + 1) s

theorem stable (hsay : ∀ s message, R s (s.say message))
    (hsubscribe : ∀ s name reaction, R s (s.subscribe name reaction)) : Stable R where
  toEditing := h.editing h.flush
  say := hsay
  subscribe := hsubscribe

end RoundStable

/-! ## The turns that are left -/

theorem Reaction.turn_of_none {r : Reaction} (h : r.turns = []) : r.turn = .done := by
  rw [turn, h, List.headD_nil]

theorem Listener.budget_spent (l : Listener) : l.spent.budget = l.budget - 1 := List.length_tail

namespace Editor

theorem budget_unsubscribe_le (s : Editor) (name : Text) :
    (s.unsubscribe name).budget ≤ s.budget := by
  have filtered : ∀ (p : Listener → Bool) (ls : List Listener),
      Listener.budgets (ls.filter p) ≤ Listener.budgets ls := by
    intro p ls
    induction ls with
    | nil => exact Nat.le_refl _
    | cons l ls ih =>
      by_cases hp : p l
      · simp only [List.filter_cons, hp, if_true, Listener.budgets]
        omega
      · simp only [List.filter_cons, hp, Bool.false_eq_true, if_false, Listener.budgets]
        omega
  exact filtered _ s.listeners

theorem budget_spend_le (s : Editor) (key : Nat) : (s.spend key).budget ≤ s.budget := by
  simp only [budget, spend]
  induction s.listeners with
  | nil => exact Nat.le_refl _
  | cons l ls ih =>
    simp only [List.map_cons, Listener.budgets]
    split
    · have hspent := l.budget_spent
      omega
    · omega

theorem budget_heard_lt {s : Editor} {l : Listener} (hl : l ∈ s.listeners)
    (hturns : l.reaction.turns ≠ []) : (s.heard l).budget < s.budget := by
  have hleft : 0 < l.budget := List.length_pos_iff.mpr hturns
  have spent : ∀ ls : List Listener, l ∈ ls →
      Listener.budgets (ls.map fun m => if m.key = l.key then m.spent else m)
        < Listener.budgets ls := by
    intro ls
    induction ls with
    | nil => exact fun hmem => absurd hmem List.not_mem_nil
    | cons m ls ih =>
      intro hmem
      have hrest := budget_spend_le { s with listeners := ls } l.key
      have hspent := m.budget_spent
      simp only [budget, spend] at hrest
      simp only [List.map_cons, Listener.budgets]
      rcases List.mem_cons.mp hmem with rfl | hmem
      · rw [if_pos rfl]
        omega
      · have hless := ih hmem
        split <;> omega
  exact spent s.listeners hl

def Wanes (s t : Editor) : Prop := t.budget ≤ s.budget

theorem wanes_roundStable : RoundStable Wanes where
  refl _ := Nat.le_refl _
  trans hst htu := Nat.le_trans htu hst
  note _ _ := Nat.le_refl _
  dismiss := budget_unsubscribe_le
  spend := budget_spend_le
  raise _ := Nat.le_refl _
  rearrange _ _ _ _ := Nat.le_refl _

/-! ## The bound on the nesting -/

/-- On editors with fewer than `n` turns left the edits do the same. -/
def Agree (n : Nat) (x y : Edit α) : Prop := ∀ s : Editor, s.budget < n → x s = y s

variable {n : Nat} {a b : Edit Unit}

theorem Agree.bind {x y : Edit α} {f g : α → Edit β} (hxy : Agree n x y) (hx : Edit.Keeps Wanes x)
    (hfg : ∀ c, Agree n (f c) (g c)) : Agree n (x >>= f) (y >>= g) := by
  intro s hs
  have hless := hx s
  rw [Edit.after] at hless
  simp only [Bind.bind, EStateM.bind, ← hxy s hs]
  cases hrun : x s with
  | ok c t =>
    rw [hrun] at hless
    exact hfg c t (Nat.lt_of_le_of_lt hless hs)
  | error e t => rfl

theorem Agree.mutateWith (h : Agree n a b) (change : Document → Document) :
    Agree n (mutateWith a change) (mutateWith b change) := by
  intro s hs
  simp only [Editor.mutateWith]
  split
  · exact h _ hs
  · rfl

theorem Agree.closeGroupWith (h : Agree n a b) : Agree n (closeGroupWith a) (closeGroupWith b) := by
  intro s hs
  simp only [Editor.closeGroupWith]
  split
  · exact h _ hs
  · rfl

theorem Agree.atomicWith (h : Agree n a b) {x y : Edit α} (hxy : Agree n x y)
    (hx : Edit.Keeps Wanes x) : Agree n (atomicWith a x) (atomicWith b y) := by
  intro s hs
  have hless : Wanes s.openGroup (x.after s.openGroup) := hx s.openGroup
  rw [Edit.after] at hless
  simp only [Editor.atomicWith, ← hxy s.openGroup hs]
  cases hrun : x s.openGroup with
  | ok c t =>
    rw [hrun] at hless
    simp only [endGroupWith, h.closeGroupWith t (Nat.lt_of_le_of_lt hless hs)]
  | error e t =>
    rw [hrun] at hless
    have hback : (restore s t).budget < n := Nat.lt_of_le_of_lt hless hs
    simp only [endGroupWith, h.closeGroupWith _ hback]

theorem Agree.attempt {x y : Edit Unit} (hxy : Agree n x y) : Agree n (attempt x) (attempt y) := by
  intro s hs
  rw [attempt_eq, attempt_eq, Edit.after, Edit.after, hxy s hs]

theorem Agree.stroke (h : Agree n a b) (stroke : Stroke) :
    Agree n (stroke.run a) (stroke.run b) := by
  cases stroke with
  | moveTo p => exact fun _ _ => rfl
  | insertText t =>
    simp only [Stroke.run, insertTextWith]
    split
    · exact fun _ _ => rfl
    · exact h.mutateWith _
  | insertLineBreak => exact h.mutateWith _
  | indentLine level =>
    intro s hs
    simp only [Stroke.run, indentLineWith]
    split
    · rfl
    · exact h.mutateWith _ s hs
  | unsubscribe name => exact fun _ _ => rfl

variable (ha : Edit.Keeps Wanes a)
include ha

theorem Agree.turn (h : Agree n a b) (turn : Turn) : Agree n (turn.run a) (turn.run b) := by
  have hkeeps := wanes_roundStable.editing ha
  induction turn with
  | done => exact fun _ _ => rfl
  | fail failure => exact fun _ _ => rfl
  | stroke s rest ih => exact (h.stroke s).bind (hkeeps.stroke s) fun _ => ih
  | atomic body rest ihbody ih =>
    have hbody := hkeeps.turn body
    exact (h.atomicWith ihbody hbody).bind (hkeeps.atomic hbody) fun _ => ih
  | attempt body rest ihbody ih =>
    exact ihbody.attempt.bind (Composable.attempt (hkeeps.turn body)) fun _ => ih

/-- A listener takes its turn with one turn less left to all. -/
theorem Agree.call (h : Agree n a b) {s : Editor} (hs : s.budget ≤ n) {l : Listener}
    (hl : l ∈ s.listeners) : call a l s = call b l s := by
  rw [call_eq, call_eq]
  by_cases hturns : l.reaction.turns = []
  · rw [Reaction.turn_of_none hturns]
    rfl
  · have hless := Nat.lt_of_lt_of_le (budget_heard_lt hl hturns) hs
    have hhabit : Agree n (l.reaction.habit.run l) (l.reaction.habit.run l) := fun _ _ => rfl
    exact hhabit.bind (wanes_roundStable.habit l _) (fun _ => h.turn ha _) _ hless

theorem Agree.callAll (h : Agree n a b) (keys : List Nat) :
    Agree (n + 1) (callAll a keys) (callAll b keys) := by
  induction keys with
  | nil => exact fun _ _ => rfl
  | cons key keys ih =>
    intro s hs
    rw [callAll_cons, callAll_cons]
    cases hl : s.listener? key with
    | none => exact ih s hs
    | some l =>
      have hwanes := wanes_roundStable.call ha l s
      rw [Edit.after] at hwanes
      simp only [Bind.bind, EStateM.bind,
        ← h.call ha (Nat.le_of_lt_succ hs) (mem_of_listener? hl)]
      cases hcall : Editor.call a l s with
      | ok c t =>
        rw [hcall] at hwanes
        exact ih t (Nat.lt_of_le_of_lt hwanes hs)
      | error e t => rfl

theorem Agree.flushWith (h : Agree n a b) : Agree (n + 1) (flushWith a) (flushWith b) := by
  intro s hs
  simp only [Editor.flushWith]
  split
  · exact h.callAll ha _ _ hs
  · rfl

omit ha

theorem flushNested_agree {m k : Nat} (h : m ≤ k) : Agree m (flushNested m) (flushNested k) := by
  have hnext : ∀ fuel, Agree fuel (flushNested fuel) (flushNested (fuel + 1)) := by
    intro fuel
    induction fuel with
    | zero => exact fun _ hs => absurd hs (Nat.not_lt_zero _)
    | succ fuel ih => exact ih.flushWith (wanes_roundStable.flushNested fuel)
  induction h with
  | refl => exact fun _ _ => rfl
  | step hle ih => exact fun s hs => (ih s hs).trans (hnext _ s (Nat.lt_of_lt_of_le hs hle))

theorem flushNested_agree_flush (fuel : Nat) : Agree fuel (flushNested fuel) flush :=
  fun s hs => (flushNested_agree hs s (Nat.lt_succ_self _)).symm

/-- The edits of listeners are announced as those of the host are. -/
theorem flush_eq (s : Editor) : flush s = flushWith flush s :=
  (flushNested_agree_flush s.budget).flushWith (wanes_roundStable.flushNested _) s
    (Nat.lt_succ_self _)

theorem flush_of_clean {s : Editor} (h : s.dirty = false) : flush s = .ok () s := by
  rw [flush_eq, flushWith, h]
  rfl

theorem flush_of_dirty {s : Editor} (h : s.dirty = true) :
    flush s = callAll flush (s.listeners.map Listener.key)
      { s with dirty := false, version := s.version + 1 } := by
  rw [flush_eq, flushWith, if_pos h]

end Editor

namespace RoundStable

variable {R : Editor → Editor → Prop} (h : RoundStable R) {s : Editor} (hdirty : s.dirty = true)
include h hdirty

/-- From the moment the version has gone up to the end of the round. -/
theorem flush_raised :
    R { s with dirty := false, version := s.version + 1 } (Editor.flush.after s) := by
  rw [Edit.after, Editor.flush_of_dirty hdirty]
  exact h.round h.flush _ _

theorem flush_heard {l : Listener} {ls : List Listener} (hfirst : s.listeners = l :: ls) :
    R ({ s with dirty := false, version := s.version + 1 }.heard l) (Editor.flush.after s) := by
  rw [Edit.after, Editor.flush_of_dirty hdirty]
  exact h.round_heard h.flush (s := { s with dirty := false, version := s.version + 1 }) hfirst

end RoundStable

end JadeEditor
