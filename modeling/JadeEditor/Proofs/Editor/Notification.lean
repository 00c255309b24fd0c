import JadeEditor.Proofs.Editor.Nesting

/-!
# Rounds come to rest

A round of notifications that starts outside all groups ends there, with nothing pending,
whatever the listeners do. What they do in a turn is announced with one turn less left to all,
so the argument goes by induction on the turns that are left: as long as the announcements with
fewer turns come to rest, an edit leads from one sound editor to another with as many groups
open, and so does what a listener does in its turn.
-/

namespace JadeEditor

set_option autoImplicit false

namespace Editor

/-- The document is well-formed and no two live subscriptions have the same number. -/
structure WellFormed (s : Editor) : Prop where
  document : s.document.WellFormed
  distinct : (s.listeners.map Listener.key).Nodup
  /-- The number of the next subscription is not in use. -/
  fresh : ∀ l ∈ s.listeners, l.key < s.subscriptions.length

theorem WellFormed.of_same {s t : Editor} (hs : s.WellFormed) (hdocument : t.document.WellFormed)
    (hlisteners : t.listeners = s.listeners) (hsubscriptions : t.subscriptions = s.subscriptions) :
    t.WellFormed := by
  refine ⟨hdocument, ?_, ?_⟩
  · rw [hlisteners]
    exact hs.distinct
  · rw [hlisteners, hsubscriptions]
    exact hs.fresh

theorem wellFormed_subscribe {s : Editor} (hs : s.WellFormed) (name : Text) (reaction : Reaction) :
    (s.subscribe name reaction).WellFormed := by
  refine ⟨hs.document, ?_, ?_⟩
  · simp only [subscribe, List.map_append, List.map_cons, List.map_nil, List.nodup_append]
    refine ⟨hs.distinct, by simp, ?_⟩
    intro k hk n hn
    obtain ⟨l, hl, rfl⟩ := List.mem_map.mp hk
    rw [List.mem_singleton] at hn
    have hlt := hs.fresh l hl
    omega
  · intro l hl
    simp only [subscribe, List.mem_append, List.mem_singleton, List.length_cons] at hl ⊢
    rcases hl with hl | rfl
    · have hlt := hs.fresh l hl
      omega
    · exact Nat.lt_succ_self _

theorem wellFormed_unsubscribe {s : Editor} (hs : s.WellFormed) (name : Text) :
    (s.unsubscribe name).WellFormed := by
  refine ⟨hs.document, ?_, ?_⟩
  · exact hs.distinct.sublist (List.filter_sublist.map _)
  · intro l hl
    exact hs.fresh l (List.mem_filter.mp hl).1

theorem keys_spend (s : Editor) (key : Nat) :
    (s.spend key).listeners.map Listener.key = s.listeners.map Listener.key := by
  simp only [spend, List.map_map]
  apply List.map_congr_left
  intro l _
  simp only [Function.comp_apply]
  split <;> rfl

theorem wellFormed_spend {s : Editor} (hs : s.WellFormed) (key : Nat) :
    (s.spend key).WellFormed := by
  refine ⟨hs.document, ?_, ?_⟩
  · rw [keys_spend]
    exact hs.distinct
  · intro l hl
    obtain ⟨m, hm, rfl⟩ := List.mem_map.mp hl
    have hlt := hs.fresh m hm
    split <;> exact hlt

/-- Well-formed, with nothing pending outside a group. -/
structure Sound (s : Editor) : Prop where
  wellFormed : s.WellFormed
  settled : s.depth = 0 → s.dirty = false

theorem sound_ofLines (lines : List Text) : (ofDocument (.ofLines lines)).Sound :=
  ⟨⟨Document.wellFormed_ofLines lines, List.nodup_nil, fun _ h => absurd h List.not_mem_nil⟩,
    fun _ => rfl⟩

theorem Sound.openGroup {s : Editor} (hs : s.Sound) : s.openGroup.Sound :=
  ⟨hs.wellFormed.of_same hs.wellFormed.document rfl rfl, fun h => absurd h (Nat.succ_ne_zero _)⟩

theorem Sound.heard {s : Editor} (hs : s.Sound) (l : Listener) : (s.heard l).Sound :=
  have hnoted : (s.note (.called l s.version s.document.lines)).WellFormed :=
    hs.wellFormed.of_same hs.wellFormed.document rfl rfl
  ⟨wellFormed_spend hnoted l.key, hs.settled⟩

/-- Sound and outside all groups, so that nothing is pending. -/
structure Resting (s : Editor) : Prop extends Sound s where
  depth : s.depth = 0

theorem Resting.clean {s : Editor} (hs : s.Resting) : s.dirty = false := hs.settled hs.depth

theorem Resting.heard {s : Editor} (hs : s.Resting) (l : Listener) : (s.heard l).Resting :=
  ⟨hs.toSound.heard l, hs.depth⟩

/-- From a sound editor to a sound one, with as many groups open. -/
def Steady (s t : Editor) : Prop := s.Sound → t.Sound ∧ t.depth = s.depth

theorem Steady.resting {s t : Editor} (h : Steady s t) (hs : s.Resting) : t.Resting := by
  obtain ⟨ht, hdepth⟩ := h hs.toSound
  exact ⟨ht, hdepth.trans hs.depth⟩

theorem steady_composable : Composable Steady where
  refl _ hs := ⟨hs, rfl⟩
  trans hst htu hs :=
    have ht := hst hs
    have hu := htu ht.1
    ⟨hu.1, hu.2.trans ht.2⟩

theorem habit_steady (l : Listener) (habit : Habit) : Edit.Keeps Steady (habit.run l) := by
  intro s hs
  cases habit with
  | watch => exact ⟨hs, rfl⟩
  | refuse => exact ⟨hs, rfl⟩
  | dismiss target => exact ⟨⟨wellFormed_unsubscribe hs.wellFormed target, hs.settled⟩, rfl⟩
  | outline =>
    exact ⟨⟨hs.wellFormed.of_same hs.wellFormed.document rfl rfl, hs.settled⟩, rfl⟩

end Editor

/-! ## Fewer turns left -/

open Editor in
/-- On editors with fewer than `n` turns left, no edit that a listener makes breaks the
relation. -/
structure EditingBelow (n : Nat) (R : Editor → Editor → Prop) : Prop extends Composable R where
  setCursor : ∀ p, Edit.Keeps R (setCursor p)
  unsubscribe : ∀ s name, R s (s.unsubscribe name)
  insert : ∀ t s, s.budget < n → R s ((mutate (·.insert t)).after s)
  breakLine : ∀ s, s.budget < n → R s (insertLineBreak.after s)
  indentLine : ∀ level s, s.budget < n → R s ((indentLine level).after s)
  group : ∀ {α : Type} (s : Editor) (r : EStateM.Result Failure Editor α),
    (finalEditor r).budget < n → R s.openGroup (finalEditor r) → R s (finalEditor (endGroup s r))

/-- No turn is added, and the relation holds if fewer than `n` are left. -/
def Below (n : Nat) (R : Editor → Editor → Prop) (s t : Editor) : Prop :=
  Editor.Wanes s t ∧ (s.budget < n → R s t)

namespace EditingBelow

variable {R : Editor → Editor → Prop}

theorem editing {n : Nat} (h : EditingBelow n R) : Editing Editor.flush (Below n R) :=
  have hwanes := Editor.wanes_roundStable.editing Editor.wanes_roundStable.flush
  { refl := fun s => ⟨hwanes.refl s, fun _ => h.refl s⟩
    trans := fun hst htu => ⟨hwanes.trans hst.1 htu.1, fun hs =>
      h.trans (hst.2 hs) (htu.2 (Nat.lt_of_le_of_lt hst.1 hs))⟩
    setCursor := fun p s => ⟨hwanes.setCursor p s, fun _ => h.setCursor p s⟩
    unsubscribe := fun s name => ⟨hwanes.unsubscribe s name, fun _ => h.unsubscribe s name⟩
    insert := fun t s => ⟨hwanes.insert t s, h.insert t s⟩
    breakLine := fun s => ⟨hwanes.breakLine s, h.breakLine s⟩
    indentLine := fun level s => ⟨hwanes.indentLine level s, h.indentLine level s⟩
    group := fun s r hr => ⟨hwanes.group s r hr.1, fun hs =>
      h.group s r (Nat.lt_of_le_of_lt hr.1 hs) (hr.2 hs)⟩ }

theorem unbounded (h : ∀ n, EditingBelow n R) : Editing Editor.flush R where
  toComposable := (h 0).toComposable
  setCursor := (h 0).setCursor
  unsubscribe := (h 0).unsubscribe
  insert t s := (h _).insert t s (Nat.lt_succ_self _)
  breakLine s := (h _).breakLine s (Nat.lt_succ_self _)
  indentLine level s := (h _).indentLine level s (Nat.lt_succ_self _)
  group s r := (h _).group s r (Nat.lt_succ_self _)

end EditingBelow

namespace Editor

/-! ## Edits -/

/-- The announcement brings every editor with fewer than `n` turns left to rest. -/
def Settles (n : Nat) : Prop :=
  ∀ s : Editor, s.WellFormed → s.depth = 0 → s.budget < n → (flush.after s).Resting

section Steady

variable {n : Nat} (hn : Settles n) {s : Editor}
include hn

theorem mutate_steady (hs : s.Sound) (hless : s.budget < n) (change : Document → Document)
    (hchange : (change s.document).WellFormed) :
    ((mutate change).after s).Sound ∧ ((mutate change).after s).depth = s.depth := by
  have hwell : { s with document := change s.document, dirty := true }.WellFormed :=
    hs.wellFormed.of_same hchange rfl rfl
  unfold Edit.after mutate mutateWith
  by_cases hdepth : s.depth = 0
  · rw [if_pos hdepth]
    have hrest := hn _ hwell hdepth hless
    exact ⟨hrest.toSound, hrest.depth.trans hdepth.symm⟩
  · rw [if_neg hdepth]
    exact ⟨⟨hwell, fun h => absurd h hdepth⟩, rfl⟩

theorem closeGroup_steady (hs : s.WellFormed) (hless : s.budget < n) {depth : Nat}
    (hdepth : s.depth = depth + 1) :
    (closeGroup.after s).Sound ∧ (closeGroup.after s).depth = depth := by
  have hwell : { s with depth := s.depth - 1 }.WellFormed := hs.of_same hs.document rfl rfl
  have hinner : s.depth - 1 = depth := by omega
  unfold Edit.after
  rw [closeGroup_eq]
  by_cases houter : s.depth - 1 = 0
  · rw [if_pos houter]
    have hrest := hn _ hwell houter hless
    exact ⟨hrest.toSound, hrest.depth.trans (houter.symm.trans hinner)⟩
  · rw [if_neg houter]
    exact ⟨⟨hwell, fun h => absurd h houter⟩, hinner⟩

theorem steady_below : EditingBelow n Steady where
  toComposable := steady_composable
  setCursor p s hs := by
    have hlines : s.document.lines ≠ [] :=
      List.ne_nil_of_length_pos (Nat.zero_lt_of_lt hs.wellFormed.document.1)
    have hmoved := Document.wellFormed_moveTo hlines p
    exact ⟨⟨hs.wellFormed.of_same hmoved rfl rfl, hs.settled⟩, rfl⟩
  unsubscribe _ name hs := ⟨⟨wellFormed_unsubscribe hs.wellFormed name, hs.settled⟩, rfl⟩
  insert t s hless hs :=
    mutate_steady hn hs hless _ (Document.wellFormed_insert hs.wellFormed.document t)
  breakLine s hless hs :=
    mutate_steady hn hs hless _ (Document.wellFormed_breakLine hs.wellFormed.document)
  indentLine level s hless hs := by
    have hnext := Document.wellFormed_indentLine hs.wellFormed.document level
    unfold Edit.after
    rw [indentLine_eq]
    split
    · exact ⟨⟨hs.wellFormed.of_same hnext rfl rfl, hs.settled⟩, rfl⟩
    · exact mutate_steady hn hs hless _ hnext
  group s r hless hr hs := by
    obtain ⟨hbody, hdepth⟩ := hr hs.openGroup
    rw [finalEditor_endGroup]
    cases r with
    | ok a t => exact closeGroup_steady hn hbody.wellFormed hless hdepth
    | error e t =>
      have hback : (restore s t).WellFormed :=
        hbody.wellFormed.of_same hs.wellFormed.document rfl rfl
      exact closeGroup_steady hn hback hless hdepth

/-! ## Rounds -/

theorem call_rests (hs : s.Resting) (hless : s.budget ≤ n) {l : Listener} (hl : l ∈ s.listeners) :
    ((call flush l).after s).Resting := by
  have hhabit := habit_steady l l.reaction.habit
  unfold Edit.after
  rw [call_eq]
  refine Steady.resting ?_ (hs.heard l)
  by_cases hturns : l.reaction.turns = []
  · rw [Reaction.turn_of_none hturns]
    exact steady_composable.bind hhabit steady_composable.pure (s.heard l)
  · -- Its edits are announced with a turn less left.
    have hturn := (steady_below hn).editing.turn l.reaction.turn
    have hbelow : Edit.Keeps (Below n Steady) (l.reaction.habit.run l) :=
      fun t => ⟨wanes_roundStable.habit l _ t, fun _ => hhabit t⟩
    exact ((steady_below hn).editing.bind hbelow (fun _ => hturn) (s.heard l)).2
      (Nat.lt_of_lt_of_le (budget_heard_lt hl hturns) hless)

theorem callAll_rests (keys : List Nat) (hs : s.Resting) (hless : s.budget ≤ n) :
    ((callAll flush keys).after s).Resting := by
  have hcomposable : Composable fun s t => Wanes s t ∧ (s.budget ≤ n → s.Resting → t.Resting) := {
    refl := fun s => ⟨wanes_roundStable.refl s, fun _ => id⟩
    trans := fun hst htu => ⟨wanes_roundStable.trans hst.1 htu.1, fun hless hs =>
      htu.2 (Nat.le_trans hst.1 hless) (hst.2 hless hs)⟩ }
  have hcall : ∀ s : Editor, ∀ l ∈ s.listeners, Wanes s ((call flush l).after s)
      ∧ (s.budget ≤ n → s.Resting → ((call flush l).after s).Resting) := fun s l hl =>
    ⟨wanes_roundStable.call wanes_roundStable.flush l s, fun hless hs => call_rests hn hs hless hl⟩
  exact (hcomposable.callAll hcall keys s).2 hless hs

end Steady

theorem settles (n : Nat) : Settles n := by
  induction n with
  | zero => exact fun s _ _ h => absurd h (Nat.not_lt_zero _)
  | succ n ih =>
    intro s hs hdepth hless
    unfold Edit.after
    by_cases hdirty : s.dirty = true
    · have hraised : { s with dirty := false, version := s.version + 1 }.Resting :=
        ⟨⟨hs.of_same hs.document rfl rfl, fun _ => rfl⟩, hdepth⟩
      rw [flush_of_dirty hdirty]
      exact callAll_rests ih _ hraised (Nat.le_of_lt_succ hless)
    · have hclean : s.dirty = false := Bool.eq_false_iff.mpr hdirty
      rw [flush_of_clean hclean]
      exact ⟨⟨hs, fun _ => hclean⟩, hdepth⟩

/-- Every announcement outside all groups ends at rest. -/
theorem flush_rests {s : Editor} (hs : s.WellFormed) (hdepth : s.depth = 0) :
    (flush.after s).Resting :=
  settles _ s hs hdepth (Nat.lt_succ_self _)

theorem steady_stable : Stable Steady where
  toEditing := EditingBelow.unbounded fun n => steady_below (settles n)
  say _ _ hs :=
    ⟨⟨hs.wellFormed.of_same hs.wellFormed.document rfl rfl, hs.settled⟩, rfl⟩
  subscribe _ name reaction hs :=
    ⟨⟨wellFormed_subscribe hs.wellFormed name reaction, hs.settled⟩, rfl⟩

end Editor

end JadeEditor
