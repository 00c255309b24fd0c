import JadeEditor.Proofs.Editor.Onlooker

/-!
# What listeners have noted

Events are only added, so what a listener has seen last can be read off them at any time, and
so can whether one of those that were called fails of itself. As long as none does, every
announcement goes through: a turn that does not fail of itself fails only where an announcement
inside it does, and that one is made with fewer turns left.
-/

namespace JadeEditor

set_option autoImplicit false

namespace Event

def seen? (key : Nat) : Event → Option (List Text)
  | called l _ lines => if l.key = key then some lines else none
  | outlined _ _ => none

def outline? (key : Nat) : Event → Option (List Definition)
  | called _ _ _ => none
  | outlined l definitions => if l.key = key then some definitions else none

/-- The call of a listener that fails of itself. -/
def refused : Event → Bool
  | called l _ _ => l.reaction.fails
  | outlined _ _ => false

/-- What the subscription with this number saw when it was last called. -/
def lastSeen? (key : Nat) (events : List Event) : Option (List Text) :=
  (events.filterMap (seen? key)).getLast?

/-- The outline that the subscription with this number computed last. -/
def lastOutline? (key : Nat) (events : List Event) : Option (List Definition) :=
  (events.filterMap (outline? key)).getLast?

theorem lastSeen?_called (key : Nat) (events : List Event) (l : Listener) (version : Nat)
    (lines : List Text) : lastSeen? key (events ++ [.called l version lines])
      = if l.key = key then some lines else lastSeen? key events := by
  by_cases hkey : l.key = key
  · simp [lastSeen?, seen?, hkey]
  · simp [lastSeen?, seen?, hkey]

theorem lastSeen?_outlined (key : Nat) (events : List Event) (l : Listener)
    (definitions : List Definition) :
    lastSeen? key (events ++ [.outlined l definitions]) = lastSeen? key events := by
  simp [lastSeen?, seen?]

theorem lastOutline?_called (key : Nat) (events : List Event) (l : Listener) (version : Nat)
    (lines : List Text) :
    lastOutline? key (events ++ [.called l version lines]) = lastOutline? key events := by
  simp [lastOutline?, outline?]

theorem lastOutline?_outlined (key : Nat) (events : List Event) (l : Listener)
    (definitions : List Definition) : lastOutline? key (events ++ [.outlined l definitions])
      = if l.key = key then some definitions else lastOutline? key events := by
  by_cases hkey : l.key = key
  · simp [lastOutline?, outline?, hkey]
  · simp [lastOutline?, outline?, hkey]

end Event

/-- By these events the listener has seen the document last, and computed its outline if it
is one that does. -/
structure UpToDate (events : List Event) (d : Document) (l : Listener) : Prop where
  seen : Event.lastSeen? l.key events = some d.lines
  outlined : l.reaction.habit = .outline → Event.lastOutline? l.key events = some d.outline

theorem UpToDate.of_same {events : List Event} {d d' : Document} {l m : Listener}
    (h : UpToDate events d m) (hlines : d'.lines = d.lines) (hkey : m.key = l.key)
    (hhabit : m.reaction.habit = l.reaction.habit) : UpToDate events d' l := by
  constructor
  · rw [hlines, ← hkey]
    exact h.seen
  · intro houtline
    rw [Document.outline, hlines, ← hkey]
    exact h.outlined (hhabit.trans houtline)

namespace Editor

/-! ## Where listeners come from -/

/-- Events and subscriptions are only added, and whoever is live in `t` and not newly
subscribed was live in `s`. -/
structure Lineage (s t : Editor) : Prop where
  events : s.events <+: t.events
  subscriptions : s.subscriptions.length ≤ t.subscriptions.length
  live : ∀ l ∈ t.listeners, l.key < s.subscriptions.length →
    ∃ m ∈ s.listeners, m.key = l.key ∧ m.reaction.habit = l.reaction.habit

theorem Lineage.of_same {s t : Editor} (hevents : t.events = s.events)
    (hsubscriptions : t.subscriptions = s.subscriptions) (hlisteners : t.listeners = s.listeners) :
    Lineage s t := by
  refine ⟨⟨[], (List.append_nil _).trans hevents.symm⟩, ?_, ?_⟩
  · exact Nat.le_of_eq (congrArg List.length hsubscriptions.symm)
  · intro l hl _
    rw [hlisteners] at hl
    exact ⟨l, hl, rfl, rfl⟩

theorem Lineage.trans {s t u : Editor} (hst : Lineage s t) (htu : Lineage t u) : Lineage s u := by
  refine ⟨hst.events.trans htu.events, Nat.le_trans hst.subscriptions htu.subscriptions, ?_⟩
  intro l hl hkey
  obtain ⟨m, hm, hmkey, hmhabit⟩ := htu.live l hl (Nat.lt_of_lt_of_le hkey hst.subscriptions)
  rw [← hmkey] at hkey ⊢
  obtain ⟨k, hk, hkkey, hkhabit⟩ := hst.live m hm hkey
  exact ⟨k, hk, hkkey, hkhabit.trans hmhabit⟩

theorem mem_spend {s : Editor} {key : Nat} {l : Listener} (hl : l ∈ (s.spend key).listeners) :
    ∃ m ∈ s.listeners, m.key = l.key ∧ m.reaction.habit = l.reaction.habit := by
  obtain ⟨m, hm, rfl⟩ := List.mem_map.mp hl
  refine ⟨m, hm, ?_⟩
  split <;> exact ⟨rfl, rfl⟩

theorem lineage_roundStable : RoundStable Lineage where
  refl _ := .of_same rfl rfl rfl
  trans := .trans
  note _ _ := ⟨List.prefix_append _ _, Nat.le_refl _, fun l hl _ => ⟨l, hl, rfl, rfl⟩⟩
  dismiss _ _ := ⟨List.prefix_refl _, Nat.le_refl _, fun l hl _ =>
    ⟨l, (List.mem_filter.mp hl).1, rfl, rfl⟩⟩
  spend _ _ := ⟨List.prefix_refl _, Nat.le_refl _, fun _ hl _ => mem_spend hl⟩
  raise _ := .of_same rfl rfl rfl
  rearrange _ _ _ _ := .of_same rfl rfl rfl

theorem lineage_stable : Stable Lineage := by
  refine lineage_roundStable.stable (fun _ _ => .of_same rfl rfl rfl) fun s name reaction => ?_
  refine ⟨List.prefix_refl _, Nat.le_succ _, ?_⟩
  intro l hl hkey
  rcases List.mem_append.mp hl with hl | hl
  · exact ⟨l, hl, rfl, rfl⟩
  · rw [List.mem_singleton.mp hl] at hkey
    exact absurd hkey (Nat.lt_irrefl _)

theorem endGroup_lineage {α : Type} (before : Editor) (r : EStateM.Result Failure Editor α) :
    Lineage (finalEditor r) (finalEditor (endGroup before r)) :=
  lineage_roundStable.endGroupWith lineage_roundStable.flush before r

/-! ## Calm rounds -/

/-- No listener has failed of itself. -/
def Calm (s : Editor) : Prop := ∀ e ∈ s.events, e.refused = false

instance (s : Editor) : Decidable s.Calm := inferInstanceAs (Decidable (∀ e ∈ s.events, _))

theorem Calm.before {s t : Editor} (ht : t.Calm) (h : Lineage s t) : s.Calm :=
  fun e he => ht e (h.events.subset he)

theorem not_fails_of_calm {s : Editor} {l : Listener} (hcalm : ((call flush l).after s).Calm) :
    l.reaction.fails = false := by
  have hheard := lineage_roundStable.call_heard lineage_roundStable.flush l s
  exact hcalm.before hheard (.called l s.version s.document.lines) (by simp [heard, note, spend])

theorem bind_of_calm {x : Edit Unit} {f : Unit → Edit Unit} {s : Editor}
    (hcalm : ((x >>= f).after s).Calm) (hf : Edit.Keeps Lineage (f ()))
    (hx : (x.after s).Calm → ∃ t, x s = .ok () t)
    (hrest : ∀ t, x s = .ok () t → ((f ()).after t).Calm → ∃ u, f () t = .ok () u) :
    ∃ u, (x >>= f) s = .ok () u := by
  have hleft := lineage_roundStable.after_left x (fun _ => hf) s
  obtain ⟨t, ht⟩ := hx (hcalm.before hleft)
  rw [Edit.after_bind_ok ht] at hcalm
  rw [Edit.bind_ok ht]
  exact hrest t ht hcalm

/-- Unless a listener fails of itself, the announcement of a change succeeds on editors with
fewer than `n` turns left. -/
def Succeeds (n : Nat) : Prop :=
  ∀ s : Editor, s.budget < n → (flush.after s).Calm → ∃ t, flush s = .ok () t

section Succeeds

variable {n : Nat} (hn : Succeeds n) {s : Editor}
include hn

theorem mutate_of_calm (hless : s.budget < n) (change : Document → Document)
    (hcalm : ((mutate change).after s).Calm) : ∃ t, mutate change s = .ok () t := by
  unfold Edit.after mutate at hcalm
  unfold mutate
  rw [mutateWith_eq] at hcalm ⊢
  split at hcalm
  · rename_i hdepth
    rw [if_pos hdepth]
    exact hn _ hless hcalm
  · rename_i hdepth
    rw [if_neg hdepth]
    exact ⟨_, rfl⟩

theorem closeGroup_of_calm (hless : s.budget < n) (hcalm : (closeGroup.after s).Calm) :
    ∃ t, closeGroup s = .ok () t := by
  unfold Edit.after at hcalm
  rw [closeGroup_eq] at hcalm ⊢
  split at hcalm
  · rename_i houter
    rw [if_pos houter]
    exact hn _ hless hcalm
  · rename_i houter
    rw [if_neg houter]
    exact ⟨_, rfl⟩

theorem stroke_of_calm (hless : s.budget < n) (stroke : Stroke)
    (hcalm : ((stroke.run flush).after s).Calm) : ∃ t, stroke.run flush s = .ok () t := by
  cases stroke with
  | moveTo p => exact ⟨_, rfl⟩
  | insertText t =>
    simp only [Stroke.run, insertTextWith] at hcalm ⊢
    by_cases hempty : t.isEmpty = true
    · rw [if_pos hempty]
      exact ⟨s, rfl⟩
    · rw [if_neg hempty] at hcalm ⊢
      exact mutate_of_calm hn hless _ hcalm
  | insertLineBreak => exact mutate_of_calm hn hless _ hcalm
  | indentLine level =>
    change (Edit.after (indentLine level) s).Calm at hcalm
    change ∃ t, indentLine level s = .ok () t
    unfold Edit.after at hcalm
    rw [indentLine_eq] at hcalm ⊢
    split at hcalm
    · rename_i hsame
      rw [if_pos hsame]
      exact ⟨_, rfl⟩
    · rename_i hdiffers
      rw [if_neg hdiffers]
      exact mutate_of_calm hn hless _ hcalm
  | unsubscribe name => exact ⟨_, rfl⟩

theorem atomic_of_calm (hless : s.budget < n) {edit : Edit Unit} (hedit : Edit.Keeps Wanes edit)
    (hbody : (edit.after s.openGroup).Calm → ∃ t, edit s.openGroup = .ok () t)
    (hcalm : ((atomic edit).after s).Calm) : ∃ t, atomic edit s = .ok () t := by
  obtain ⟨t, ht⟩ := hbody (hcalm.before (endGroup_lineage s _))
  have hwanes := hedit s.openGroup
  rw [Edit.after, ht, finalEditor_ok] at hwanes
  rw [Edit.after, atomic_eq, ht, finalEditor_endGroup] at hcalm
  obtain ⟨u, hclose⟩ := closeGroup_of_calm hn (Nat.lt_of_le_of_lt hwanes hless) hcalm
  exact ⟨u, by rw [atomic_eq, ht, endGroup_ok, hclose]⟩

theorem turn_of_calm {turn : Turn} (hfails : turn.fails = false) (hless : s.budget < n)
    (hcalm : ((turn.run flush).after s).Calm) : ∃ t, turn.run flush s = .ok () t := by
  have hlineage := lineage_stable.toEditing
  have hwanes := wanes_roundStable.editing wanes_roundStable.flush
  have hstill : ∀ {x : Edit Unit}, Edit.Keeps Wanes x → ∀ {s t : Editor}, s.budget < n →
      x s = .ok () t → t.budget < n := by
    intro x hx s t hless ht
    have hle := hx s
    rw [Edit.after, ht] at hle
    exact Nat.lt_of_le_of_lt hle hless
  induction turn generalizing s with
  | done => exact ⟨s, rfl⟩
  | fail failure => cases hfails
  | stroke stroke rest ih =>
    refine bind_of_calm hcalm (hlineage.turn rest) (stroke_of_calm hn hless stroke) ?_
    exact fun t ht => ih hfails (hstill (hwanes.stroke stroke) hless ht)
  | atomic body rest ihbody ih =>
    obtain ⟨hbody, hrest⟩ := Bool.or_eq_false_iff.mp hfails
    have hkeeps := hwanes.turn body
    refine bind_of_calm hcalm (hlineage.turn rest) ?_ ?_
    · exact atomic_of_calm hn hless hkeeps (ihbody (s := s.openGroup) hbody hless)
    · exact fun t ht => ih hrest (hstill (hwanes.atomic hkeeps) hless ht)
  | attempt body rest ihbody ih =>
    refine bind_of_calm hcalm (hlineage.turn rest) (fun _ => ⟨_, attempt_eq _ s⟩) ?_
    exact fun t ht => ih hfails (hstill (Composable.attempt (hwanes.turn body)) hless ht)

theorem call_of_calm (hless : s.budget ≤ n) {l : Listener} (hl : l ∈ s.listeners)
    (hcalm : ((call flush l).after s).Calm) : ∃ t, call flush l s = .ok () t := by
  obtain ⟨hstands, hturn⟩ := Bool.or_eq_false_iff.mp (not_fails_of_calm hcalm)
  refine bind_of_calm (s := s.heard l) hcalm (lineage_stable.turn _) ?_ ?_
  · intro _
    cases hhabit : l.reaction.habit with
    | refuse => simp [hhabit] at hstands
    | watch | dismiss | outline => exact ⟨_, rfl⟩
  · intro t ht hcalm'
    by_cases hturns : l.reaction.turns = []
    · rw [Reaction.turn_of_none hturns]
      exact ⟨t, rfl⟩
    · have hwanes := wanes_roundStable.habit l l.reaction.habit (s.heard l)
      rw [Edit.after, ht] at hwanes
      have hspent := Nat.lt_of_lt_of_le (budget_heard_lt hl hturns) hless
      exact turn_of_calm hn hturn (Nat.lt_of_le_of_lt hwanes hspent) hcalm'

theorem callAll_of_calm (keys : List Nat) (hless : s.budget ≤ n)
    (hcalm : ((callAll flush keys).after s).Calm) : ∃ t, callAll flush keys s = .ok () t := by
  induction keys generalizing s with
  | nil => exact ⟨s, rfl⟩
  | cons key keys ih =>
    unfold Edit.after at hcalm
    rw [callAll_cons] at hcalm ⊢
    cases hfound : s.listener? key with
    | none =>
      simp only [hfound] at hcalm ⊢
      exact ih hless hcalm
    | some l =>
      simp only [hfound] at hcalm ⊢
      have hround := lineage_roundStable.round lineage_roundStable.flush keys
      refine bind_of_calm hcalm hround (call_of_calm hn hless (mem_of_listener? hfound)) ?_
      intro t ht
      have hwanes := wanes_roundStable.call wanes_roundStable.flush l s
      rw [Edit.after, ht] at hwanes
      exact ih (Nat.le_trans hwanes hless)

end Succeeds

theorem succeeds (n : Nat) : Succeeds n := by
  induction n with
  | zero => exact fun s h => absurd h (Nat.not_lt_zero _)
  | succ n ih =>
    intro s hless hcalm
    by_cases hdirty : s.dirty = true
    · rw [Edit.after, flush_of_dirty hdirty] at hcalm
      rw [flush_of_dirty hdirty]
      exact callAll_of_calm ih _ (Nat.le_of_lt_succ hless) hcalm
    · exact ⟨s, flush_of_clean (Bool.eq_false_iff.mpr hdirty)⟩

end Editor

end JadeEditor
