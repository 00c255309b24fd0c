import JadeEditor.Proofs.Editor.Idling

/-!
# Onlookers

A round of notifications among listeners that do not change the text leaves the lines, the
version and the state of groups alone: it adds events, ends subscriptions and may move the
cursor. If none of the listeners fails either, the round succeeds.
-/

namespace JadeEditor

set_option autoImplicit false

namespace Editor

/-! ## Rounds among onlookers -/

/-- All live listeners have a reaction with the property. -/
def Listening (Q : Reaction → Bool) (s : Editor) : Prop := ∀ l ∈ s.listeners, Q l.reaction = true

theorem listening_ofDocument (Q : Reaction → Bool) (d : Document) : Listening Q (ofDocument d) :=
  fun _ hl => absurd hl List.not_mem_nil

theorem Listening.subscribe {Q : Reaction → Bool} {s : Editor} (hs : Listening Q s) (name : Text)
    {reaction : Reaction} (h : Q reaction = true) : Listening Q (s.subscribe name reaction) := by
  intro l hl
  rcases List.mem_append.mp hl with hl | hl
  · exact hs l hl
  · rw [List.mem_singleton.mp hl]
    exact h

/-- All but the listeners and the events is the same, and the cursor too unless it is free. -/
structure Unmoved (free : Bool) (s t : Editor) : Prop where
  document : s.document.Alike free t.document
  version : t.version = s.version
  depth : t.depth = s.depth
  dirty : t.dirty = s.dirty

theorem Unmoved.refl (free : Bool) (s : Editor) : Unmoved free s s :=
  ⟨.refl free s.document, rfl, rfl, rfl⟩

theorem Unmoved.trans {free : Bool} {s t u : Editor} (hst : Unmoved free s t)
    (htu : Unmoved free t u) : Unmoved free s u :=
  ⟨hst.document.trans htu.document, htu.version.trans hst.version, htu.depth.trans hst.depth,
    htu.dirty.trans hst.dirty⟩

/-- A property of onlookers that lasts while a listener uses up its turns. If the cursor is not
free, they do not move it. -/
structure Onlooking (free : Bool) (Q : Reaction → Bool) : Prop where
  not_writes : ∀ {r}, Q r = true → r.writes = false
  not_edits : ∀ {r}, free = false → Q r = true → r.edits = false
  spend : ∀ {r}, Q r = true → Q r.spent = true

/-- Onlookers that do not fail. -/
structure Agreeable (free : Bool) (Q : Reaction → Bool) : Prop extends Onlooking free Q where
  not_fails : ∀ {r}, Q r = true → r.fails = false

section Round

variable {free : Bool} {Q : Reaction → Bool} (hQ : Onlooking free Q)
include hQ

theorem Listening.noted {s : Editor} (hs : Listening Q s) (l : Listener) :
    Listening Q (s.noted l) := by
  intro m hm
  obtain ⟨k, hk, rfl⟩ := List.mem_map.mp hm
  have hkeeps := hs k hk
  split
  · exact hQ.spend hkeeps
  · exact hkeeps

theorem Listening.turned {s : Editor} (hs : Listening Q s) (l : Listener) (names : List Text)
    (d : Document) : Listening Q ((s.noted l).turned names d) :=
  fun m hm => hs.noted hQ l m (mem_of_mem_without hm)

theorem lead_alike {r : Reaction} (hr : Q r = true) (d : Document) :
    d.Alike free (r.turn.lead d) :=
  Turn.lead_alike (fun hfree => Reaction.any_turn (hQ.not_edits hfree hr)) d

theorem call_unmoved {s : Editor} (hclean : s.dirty = false) (hs : Listening Q s) {l : Listener}
    (hl : l ∈ s.listeners) :
    Unmoved free s ((call flush l).after s) ∧ Listening Q ((call flush l).after s) := by
  obtain ⟨-, names, d, hafter, hd⟩ := call_of_idle (hQ.not_writes (hs l hl)) hclean
  have halike : s.document.Alike free d := by
    rcases hd with rfl | rfl
    · exact .refl free _
    · exact lead_alike hQ (hs l hl) _
  rw [hafter]
  exact ⟨⟨halike, rfl, rfl, rfl⟩, hs.turned hQ l names d⟩

theorem callAll_unmoved (keys : List Nat) {s : Editor} (hclean : s.dirty = false)
    (hs : Listening Q s) :
    Unmoved free s ((callAll flush keys).after s)
      ∧ Listening Q ((callAll flush keys).after s) := by
  have hcomposable :
      Composable fun s t => s.dirty = false → Listening Q s → Unmoved free s t ∧ Listening Q t := {
    refl := fun s _ hs => ⟨.refl free s, hs⟩
    trans := fun hst htu hclean hs => by
      obtain ⟨hunmoved, ht⟩ := hst hclean hs
      obtain ⟨hmore, hu⟩ := htu (hunmoved.dirty.trans hclean) ht
      exact ⟨hunmoved.trans hmore, hu⟩ }
  exact hcomposable.callAll (fun _ _ hl hclean hs => call_unmoved hQ hclean hs hl) keys s hclean hs

/-- A round among onlookers: the version goes up if something was pending, and the cursor may
move if it is free. -/
structure Announced (free : Bool) (s t : Editor) : Prop where
  document : s.document.Alike free t.document
  depth : t.depth = s.depth
  dirty : t.dirty = false
  version : t.version = s.version + if s.dirty then 1 else 0

theorem flush_announced {s : Editor} (hs : Listening Q s) :
    Announced free s (flush.after s) ∧ Listening Q (flush.after s) := by
  unfold Edit.after
  cases hdirty : s.dirty with
  | true =>
    obtain ⟨hround, hlistening⟩ := callAll_unmoved hQ (s.listeners.map Listener.key)
      (s := { s with dirty := false, version := s.version + 1 }) rfl hs
    rw [flush_of_dirty hdirty]
    refine ⟨⟨hround.document, hround.depth, hround.dirty, ?_⟩, hlistening⟩
    rw [if_pos hdirty]
    exact hround.version
  | false =>
    rw [flush_of_clean hdirty]
    refine ⟨⟨.refl free _, rfl, hdirty, ?_⟩, hs⟩
    rw [hdirty]
    rfl

end Round

theorem onlooking_not_writes : Onlooking true (fun r => !r.writes) where
  not_writes h := by simpa using h
  not_edits hfree _ := absurd hfree Bool.noConfusion
  spend h := by
    rw [Bool.not_eq_true'] at h ⊢
    exact Reaction.any_spent h

theorem onlooking_not_edits : Onlooking false (fun r => !r.edits) where
  not_writes h := Reaction.writes_of_edits (by simpa using h)
  not_edits _ h := by simpa using h
  spend h := by
    rw [Bool.not_eq_true'] at h ⊢
    exact Reaction.any_spent h

theorem agreeable_peaceful : Agreeable true Reaction.peaceful where
  not_writes h := onlooking_not_writes.not_writes (Bool.and_eq_true_iff.mp h).1
  not_edits hfree _ := absurd hfree Bool.noConfusion
  not_fails h := Reaction.not_fails_of_willing (Bool.and_eq_true_iff.mp h).2
  spend h := by
    obtain ⟨hwrites, hwilling⟩ := Bool.and_eq_true_iff.mp h
    exact Bool.and_eq_true_iff.mpr
      ⟨onlooking_not_writes.spend hwrites, Reaction.willing_spent hwilling⟩

theorem agreeable_harmless : Agreeable false Reaction.harmless where
  not_writes h := onlooking_not_edits.not_writes (Bool.and_eq_true_iff.mp h).1
  not_edits hfree h := onlooking_not_edits.not_edits hfree (Bool.and_eq_true_iff.mp h).1
  not_fails h := Reaction.not_fails_of_willing (Bool.and_eq_true_iff.mp h).2
  spend h := by
    obtain ⟨hedits, hwilling⟩ := Bool.and_eq_true_iff.mp h
    exact Bool.and_eq_true_iff.mpr
      ⟨onlooking_not_edits.spend hedits, Reaction.willing_spent hwilling⟩

/-- The listeners that a change is announced to have the property. Inside a group none is
called, so there they may do what they like. -/
def Facing (Q : Reaction → Bool) (s : Editor) : Prop := s.depth = 0 → Listening Q s

theorem Listening.facing {Q : Reaction → Bool} {s : Editor} (hs : Listening Q s) : Facing Q s :=
  fun _ => hs

/-! ## Announcements that succeed -/

section Agreeable

variable {free : Bool} {Q : Reaction → Bool} (hQ : Agreeable free Q)
include hQ

theorem call_of_agreeable {s : Editor} (hclean : s.dirty = false) (hs : Listening Q s)
    {l : Listener} (hl : l ∈ s.listeners) : call flush l s = .ok () (s.behind l) :=
  (call_of_idle (hQ.not_writes (hs l hl)) hclean).1 (hQ.not_fails (hs l hl))

theorem callAll_succeeds (keys : List Nat) {s : Editor} (hclean : s.dirty = false)
    (hs : Listening Q s) : ∃ t, callAll flush keys s = .ok () t := by
  induction keys generalizing s with
  | nil => exact ⟨s, rfl⟩
  | cons key keys ih =>
    rw [callAll_cons]
    split
    · exact ih hclean hs
    · rename_i l hfound
      rw [Edit.bind_ok (call_of_agreeable hQ hclean hs (mem_of_listener? hfound))]
      exact ih (s := s.behind l) hclean (hs.turned hQ.toOnlooking l _ _)

theorem flush_of_agreeable {s : Editor} (hs : Listening Q s) :
    ∃ t, flush s = .ok () t ∧ Announced free s t ∧ Listening Q t := by
  have hok : ∃ t, flush s = .ok () t := by
    cases hdirty : s.dirty with
    | true =>
      rw [flush_of_dirty hdirty]
      exact callAll_succeeds hQ _ rfl hs
    | false => exact ⟨s, flush_of_clean hdirty⟩
  obtain ⟨t, ht⟩ := hok
  have hannounced := flush_announced hQ.toOnlooking hs
  rw [Edit.after, ht] at hannounced
  exact ⟨t, ht, hannounced⟩

theorem mutate_succeeds {s : Editor} (hs : Facing Q s) (change : Document → Document) :
    ∃ t, mutate change s = .ok () t := by
  unfold mutate mutateWith
  by_cases hdepth : s.depth = 0
  · rw [if_pos hdepth]
    obtain ⟨t, hflush, -⟩ := flush_of_agreeable hQ
      (s := { s with document := change s.document, dirty := true }) (hs hdepth)
    exact ⟨t, hflush⟩
  · rw [if_neg hdepth]
    exact ⟨_, rfl⟩

end Agreeable

/-! ## Changes that onlookers hear of -/

section Facing

variable {free : Bool} {Q : Reaction → Bool} (hQ : Onlooking free Q)
include hQ

theorem mutate_facing {s : Editor} (hs : Facing Q s) (change : Document → Document) :
    (change s.document).Alike free ((mutate change).after s).document
      ∧ Facing Q ((mutate change).after s) := by
  unfold Edit.after mutate mutateWith
  by_cases hdepth : s.depth = 0
  · rw [if_pos hdepth]
    obtain ⟨hannounced, hlistening⟩ := flush_announced hQ
      (s := { s with document := change s.document, dirty := true }) (hs hdepth)
    exact ⟨hannounced.document, fun _ => hlistening⟩
  · rw [if_neg hdepth]
    exact ⟨.refl free _, fun h => absurd h hdepth⟩

theorem mutate_announced {s : Editor} (hdepth : s.depth = 0) (hs : Listening Q s)
    (change : Document → Document) :
    Announced free { s with document := change s.document, dirty := true }
      ((mutate change).after s) := by
  unfold Edit.after mutate mutateWith
  rw [if_pos hdepth]
  exact (flush_announced hQ
    (s := { s with document := change s.document, dirty := true }) hs).1

theorem mutate_settles {s : Editor} (hs : Facing Q s) (change : Document → Document)
    (houter : ((mutate change).after s).depth = 0) : ((mutate change).after s).dirty = false := by
  by_cases hdepth : s.depth = 0
  · exact (mutate_announced hQ hdepth (hs hdepth) change).dirty
  · unfold Edit.after mutate mutateWith at houter
    rw [if_neg hdepth] at houter
    exact absurd houter hdepth

theorem closeGroup_facing {s : Editor} (hs : s.depth - 1 = 0 → Listening Q s) :
    s.document.Alike free (closeGroup.after s).document ∧ Facing Q (closeGroup.after s) := by
  unfold Edit.after
  rw [closeGroup_eq]
  by_cases houter : s.depth - 1 = 0
  · rw [if_pos houter]
    obtain ⟨hannounced, hlistening⟩ := flush_announced hQ
      (s := { s with depth := s.depth - 1 }) (hs houter)
    exact ⟨hannounced.document, fun _ => hlistening⟩
  · rw [if_neg houter]
    exact ⟨.refl free _, fun h => absurd h houter⟩

end Facing

end Editor

end JadeEditor
