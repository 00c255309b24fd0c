import JadeEditor.Proofs.Editor.Announcement
import JadeEditor.Proofs.Editor.View

/-!
# Every announcement informs the listeners

A listener that edits starts a round inside the round it was called in, and those behind it are
then called a second time, later, by the outer round. So the calls do not come in the order of
the versions. Still no listener is left behind: as long as none fails, a round ends with every
live listener having seen the lines as they are then. For what a listener does in its turn either
raises the version, and then the round inside has informed everyone, or it changes neither the
lines nor what anyone has noted.
-/

namespace JadeEditor

set_option autoImplicit false

namespace Editor

variable {s t u : Editor} {l : Listener} {keys : List Nat} {n : Nat}

/-- All listeners are up to date, except for those whose turn is still to come. -/
def InformedBut (keys : List Nat) (s : Editor) : Prop :=
  ∀ l ∈ s.listeners, l.key ∉ keys → UpToDate s.events s.document l

def Informed (s : Editor) : Prop := ∀ l ∈ s.listeners, UpToDate s.events s.document l

/-- Unless a listener fails, the announcement of a change informs all listeners of an editor
with fewer than `n` turns left. -/
def Informs (n : Nat) : Prop :=
  ∀ s : Editor, s.WellFormed → s.depth = 0 → s.dirty = true → s.budget < n →
    (flush.after s).Calm → (flush.after s).Informed

/-! ## What a listener notes -/

/-- The call of `l` itself is what makes it up to date; the others are as they were. -/
theorem InformedBut.heard (h : InformedBut (l.key :: keys) s) {m : Listener}
    (hm : m ∈ (s.heard l).listeners) (hkey : m.key ∉ keys)
    (hwatch : m.key = l.key → m.reaction.habit ≠ .outline) :
    UpToDate (s.heard l).events s.document m := by
  have hevents : (s.heard l).events = s.events ++ [.called l s.version s.document.lines] := rfl
  rw [hevents]
  by_cases hsame : m.key = l.key
  · constructor
    · rw [Event.lastSeen?_called, if_pos hsame.symm]
    · intro houtline
      exact absurd houtline (hwatch hsame)
  · obtain ⟨k, hk, hkkey, hkhabit⟩ := mem_spend hm
    have hbefore : UpToDate s.events s.document m :=
      (h k hk (by simp [hkkey, hsame, hkey])).of_same rfl hkkey hkhabit
    constructor
    · rw [Event.lastSeen?_called, if_neg (Ne.symm hsame)]
      exact hbefore.seen
    · rw [Event.lastOutline?_called]
      exact hbefore.outlined

theorem InformedBut.outlined (h : InformedBut (l.key :: keys) s) :
    InformedBut keys ((s.heard l).note (.outlined l s.document.outline)) := by
  intro m hm hkey
  by_cases hsame : m.key = l.key
  · constructor
    · rw [note, Event.lastSeen?_outlined, Editor.heard, spend, note, Event.lastSeen?_called,
        if_pos hsame.symm]
    · intro _
      rw [note, Event.lastOutline?_outlined, if_pos hsame.symm]
      rfl
  · have hbefore := h.heard hm hkey fun heq => absurd heq hsame
    constructor
    · rw [note, Event.lastSeen?_outlined]
      exact hbefore.seen
    · rw [note, Event.lastOutline?_outlined, if_neg (Ne.symm hsame)]
      exact hbefore.outlined

theorem habit_informs (hs : s.WellFormed) (hl : l ∈ s.listeners)
    (hbut : InformedBut (l.key :: keys) s) (hstands : l.reaction.habit ≠ .refuse) :
    ∃ t, l.reaction.habit.run l (s.heard l) = .ok () t ∧ InformedBut keys t := by
  -- A listener that is not one for outlines needs no more than its call.
  have hheard : l.reaction.habit ≠ .outline → InformedBut keys (s.heard l) := by
    intro hwatch m hm hkey
    apply hbut.heard hm hkey
    intro hsame
    obtain ⟨k, hk, hkkey, hkhabit⟩ := mem_spend hm
    have hfound := listener?_of_mem hs hk
    rw [hkkey, hsame, listener?_of_mem hs hl] at hfound
    cases hfound
    rw [← hkhabit]
    exact hwatch
  cases hhabit : l.reaction.habit with
  | watch => exact ⟨_, rfl, hheard (by simp [hhabit])⟩
  | refuse => exact absurd hhabit hstands
  | dismiss target =>
    refine ⟨_, rfl, fun m hm => ?_⟩
    exact hheard (by simp [hhabit]) m (List.mem_filter.mp hm).1
  | outline => exact ⟨_, rfl, hbut.outlined⟩

/-! ## What raises the version informs everyone -/

theorem subscriptions_roundStable :
    RoundStable fun s t : Editor => t.subscriptions = s.subscriptions where
  refl _ := rfl
  trans hst htu := htu.trans hst
  note _ _ := rfl
  dismiss _ _ := rfl
  spend _ _ := rfl
  raise _ := rfl
  rearrange _ _ _ _ := rfl

/-- How an editor changes from one to the next in a run. -/
def Course (s t : Editor) : Prop := (Steady s t ∧ Dated s t) ∧ Quiet s t ∧ Lineage s t

theorem course_stable : Stable Course :=
  (steady_stable.and dated_stable).and (quiet_stable.and lineage_stable)

/-- Outside all groups, if the version goes up from `s` to `t`, those of before are up to
date in `t`. -/
structure Refreshes (s t : Editor) : Prop where
  course : Course s t
  upToDate : s.Sound → s.depth = 0 → s.version < t.version → t.Calm →
    ∀ l ∈ t.listeners, l.key < s.subscriptions.length → UpToDate t.events t.document l

theorem Refreshes.of_same (h : Course s t) (hversion : t.version = s.version) : Refreshes s t := by
  refine ⟨h, fun _ _ hraised => ?_⟩
  rw [hversion] at hraised
  exact absurd hraised (Nat.lt_irrefl _)

theorem Lineage.upToDate (h : Lineage s t) (hevents : t.events = s.events) {d d' : Document}
    (hlines : d'.lines = d.lines) (hl : l ∈ t.listeners) (hkey : l.key < s.subscriptions.length)
    (hbefore : ∀ m ∈ s.listeners, m.key = l.key → UpToDate s.events d m) :
    UpToDate t.events d' l := by
  obtain ⟨m, hm, hmkey, hhabit⟩ := h.live l hl hkey
  rw [hevents]
  exact (hbefore m hm hmkey).of_same hlines hmkey hhabit

theorem Refreshes.trans (hst : Refreshes s t) (htu : Refreshes t u) : Refreshes s u := by
  refine ⟨course_stable.trans hst.course htu.course, ?_⟩
  intro hs hdepth hraised hcalm l hl hkey
  obtain ⟨⟨hsteady, -⟩, -, hlineage⟩ := hst.course
  obtain ⟨⟨hsteady', hdated'⟩, -, hlineage'⟩ := htu.course
  obtain ⟨ht, htdepth⟩ := hsteady hs
  have hkey' := Nat.lt_of_lt_of_le hkey hlineage.subscriptions
  by_cases hlater : t.version < u.version
  · exact htu.upToDate ht (htdepth.trans hdepth) hlater hcalm l hl hkey'
  · have hsame : u.version = t.version := Nat.le_antisymm (Nat.not_lt.mp hlater) hdated'.version
    obtain ⟨hu, hudepth⟩ := hsteady' ht
    have hclean := hu.settled (hudepth.trans (htdepth.trans hdepth))
    apply hlineage'.upToDate (hdated'.events hsame) (hdated'.lines hsame hclean).2 hl hkey'
    intro m hm hmkey
    rw [hsame] at hraised
    exact hst.upToDate hs hdepth hraised (hcalm.before hlineage') m hm (hmkey ▸ hkey)

/-- Without new subscriptions, whoever was informed before still is. -/
theorem Refreshes.informedBut (h : Refreshes s t) (hs : s.Resting)
    (hsubscriptions : t.subscriptions = s.subscriptions) (hcalm : t.Calm)
    (hbut : InformedBut keys s) : InformedBut keys t := by
  intro l hl hkey
  obtain ⟨⟨hsteady, hdated⟩, -, hlineage⟩ := h.course
  have ht := hsteady.resting hs
  have hold : l.key < s.subscriptions.length := hsubscriptions ▸ ht.wellFormed.fresh l hl
  by_cases hraised : s.version < t.version
  · exact h.upToDate hs.toSound hs.depth hraised hcalm l hl hold
  · have hsame : t.version = s.version := Nat.le_antisymm (Nat.not_lt.mp hraised) hdated.version
    apply hlineage.upToDate (hdated.events hsame) (hdated.lines hsame ht.clean).2 hl hold
    exact fun m hm hmkey => hbut m hm (hmkey ▸ hkey)

section Below

variable (hn : Informs n)
include hn

theorem mutate_informs (hs : s.Sound) (hdepth : s.depth = 0) (hless : s.budget < n)
    (change : Document → Document) (hchange : (change s.document).WellFormed)
    (hcalm : ((mutate change).after s).Calm) : ((mutate change).after s).Informed := by
  unfold Edit.after mutate at hcalm ⊢
  rw [mutateWith_eq, if_pos hdepth] at hcalm ⊢
  exact hn _ (hs.wellFormed.of_same hchange rfl rfl) hdepth rfl hless hcalm

theorem closeGroup_informs (hs : s.WellFormed) (hdepth : s.depth = 1) (hless : s.budget < n)
    (hraised : s.version < (closeGroup.after s).version) (hcalm : (closeGroup.after s).Calm) :
    (closeGroup.after s).Informed := by
  have houter : s.depth - 1 = 0 := by omega
  unfold Edit.after at hraised hcalm ⊢
  rw [closeGroup_eq, if_pos houter] at hraised hcalm ⊢
  by_cases hdirty : s.dirty = true
  · exact hn _ (hs.of_same hs.document rfl rfl) houter hdirty hless hcalm
  · have hclean : { s with depth := s.depth - 1 }.dirty = false := Bool.eq_false_iff.mpr hdirty
    rw [flush_of_clean hclean] at hraised
    exact absurd hraised (Nat.lt_irrefl _)

theorem endGroup_informs {α : Type} {before : Editor} {r : EStateM.Result Failure Editor α}
    (hbefore : before.Sound) (hdepth : before.depth = 0)
    (hbody : Course before.openGroup (finalEditor r)) (hless : (finalEditor r).budget < n)
    (hraised : before.version < (finalEditor (endGroup before r)).version)
    (hcalm : (finalEditor (endGroup before r)).Calm) :
    (finalEditor (endGroup before r)).Informed := by
  obtain ⟨⟨hsteady, -⟩, hquiet, -⟩ := hbody
  obtain ⟨hsound, hopen⟩ := hsteady hbefore.openGroup
  have hone : (finalEditor r).depth = 1 := hopen.trans (congrArg Nat.succ hdepth)
  have hversion : (finalEditor r).version = before.version := (hquiet (Nat.succ_pos _)).version
  rw [finalEditor_endGroup] at hraised hcalm ⊢
  rw [← hversion] at hraised
  cases r with
  | ok a t => exact closeGroup_informs hn hsound.wellFormed hone hless hraised hcalm
  | error e t =>
    have hback : (restore before t).WellFormed :=
      hsound.wellFormed.of_same hbefore.wellFormed.document rfl rfl
    exact closeGroup_informs hn hback hone hless hraised hcalm

theorem refreshes_below : EditingBelow n Refreshes where
  refl s := .of_same (course_stable.refl s) rfl
  trans := .trans
  setCursor p s := .of_same (course_stable.setCursor p s) rfl
  unsubscribe s name := .of_same (course_stable.unsubscribe s name) rfl
  insert t s hless := by
    refine ⟨course_stable.insert t s, fun hs hdepth _ hcalm l hl _ => ?_⟩
    exact mutate_informs hn hs hdepth hless _
      (Document.wellFormed_insert hs.wellFormed.document t) hcalm l hl
  breakLine s hless := by
    refine ⟨course_stable.breakLine s, fun hs hdepth _ hcalm l hl _ => ?_⟩
    exact mutate_informs hn hs hdepth hless _
      (Document.wellFormed_breakLine hs.wellFormed.document) hcalm l hl
  indentLine level s hless := by
    have hcourse : Course s ((indentLine level).after s) := course_stable.indentLine level s
    unfold Edit.after at hcourse ⊢
    rw [indentLine_eq] at hcourse ⊢
    split at hcourse
    · rename_i hsame
      rw [if_pos hsame]
      exact .of_same hcourse rfl
    · rename_i hdiffers
      rw [if_neg hdiffers]
      refine ⟨hcourse, fun hs hdepth _ hcalm l hl _ => ?_⟩
      have hnext := Document.wellFormed_indentLine hs.wellFormed.document level
      exact mutate_informs hn hs hdepth hless _ hnext hcalm l hl
  group s r hless hr := by
    refine ⟨course_stable.group s r hr.course, fun hs hdepth hraised hcalm l hl _ => ?_⟩
    exact endGroup_informs hn hs hdepth hr.course hless hraised hcalm l hl

/-! ## Rounds -/

theorem call_informs (hs : s.Resting) (hless : s.budget ≤ n) (hl : l ∈ s.listeners)
    (hbut : InformedBut (l.key :: keys) s) (hcalm : ((call flush l).after s).Calm) :
    InformedBut keys ((call flush l).after s) := by
  have hstands : l.reaction.habit ≠ .refuse := by
    have hfails := (Bool.or_eq_false_iff.mp (not_fails_of_calm hcalm)).1
    simpa using hfails
  obtain ⟨t, hhabit, ht⟩ := habit_informs hs.wellFormed hl hbut hstands
  have hcall : (call flush l).after s = (l.reaction.turn.run flush).after t :=
    Edit.after_bind_ok hhabit _
  rw [hcall] at hcalm ⊢
  by_cases hturns : l.reaction.turns = []
  · rw [Reaction.turn_of_none hturns]
    exact ht
  · have hresting : t.Resting := by
      have hsteady := habit_steady l l.reaction.habit (s.heard l)
      rw [Edit.after, hhabit] at hsteady
      exact hsteady.resting (hs.heard l)
    have hwanes := wanes_roundStable.habit l l.reaction.habit (s.heard l)
    rw [Edit.after, hhabit] at hwanes
    have hspent := Nat.lt_of_lt_of_le (budget_heard_lt hl hturns) hless
    have hrefreshes := ((refreshes_below hn).editing.turn l.reaction.turn t).2
      (Nat.lt_of_le_of_lt hwanes hspent)
    have hsubscriptions := (subscriptions_roundStable.editing subscriptions_roundStable.flush).turn
      l.reaction.turn t
    exact hrefreshes.informedBut hresting hsubscriptions hcalm ht

theorem callAll_informs (keys : List Nat) (hs : s.Resting) (hless : s.budget ≤ n)
    (hbut : InformedBut keys s) (hcalm : ((callAll flush keys).after s).Calm) :
    ((callAll flush keys).after s).Informed := by
  induction keys generalizing s with
  | nil => exact fun l hl => hbut l hl List.not_mem_nil
  | cons key keys ih =>
    unfold Edit.after at hcalm ⊢
    rw [callAll_cons] at hcalm ⊢
    cases hfound : s.listener? key with
    | none =>
      simp only [hfound] at hcalm ⊢
      apply ih hs hless ?_ hcalm
      intro l hl hkey
      have hne : l.key ≠ key := by
        rintro rfl
        rw [listener?_of_mem hs.wellFormed hl] at hfound
        cases hfound
      exact hbut l hl (by simp [hne, hkey])
    | some l =>
      simp only [hfound] at hcalm ⊢
      have hl := mem_of_listener? hfound
      obtain rfl : l.key = key := by simpa using List.find?_some hfound
      have hlater : Lineage ((call flush l).after s)
          ((call flush l >>= fun _ => callAll flush keys).after s) :=
        lineage_roundStable.after_left _
          (fun _ => lineage_roundStable.round lineage_roundStable.flush keys) s
      obtain ⟨t, hcall⟩ := call_of_calm (succeeds _) hless hl (hcalm.before hlater)
      have ht := call_informs hn hs hless hl hbut (hcalm.before hlater)
      have hrests := call_rests (settles _) hs hless hl
      have hwanes := wanes_roundStable.call wanes_roundStable.flush l s
      rw [Edit.after, hcall, finalEditor_ok] at ht hrests hwanes
      rw [Edit.bind_ok hcall] at hcalm ⊢
      exact ih hrests (Nat.le_trans hwanes hless) ht hcalm

end Below

theorem informs (n : Nat) : Informs n := by
  induction n with
  | zero => exact fun s _ _ _ h => absurd h (Nat.not_lt_zero _)
  | succ n ih =>
    intro s hs hdepth hdirty hless hcalm
    have hraised : { s with dirty := false, version := s.version + 1 }.Resting :=
      ⟨⟨hs.of_same hs.document rfl rfl, fun _ => rfl⟩, hdepth⟩
    rw [Edit.after, flush_of_dirty hdirty] at hcalm ⊢
    apply callAll_informs ih _ hraised (Nat.le_of_lt_succ hless) ?_ hcalm
    intro l hl hkey
    exact absurd (List.mem_map.mpr ⟨l, hl, rfl⟩) hkey

theorem refreshes_stable : Stable Refreshes where
  toEditing := EditingBelow.unbounded fun n => refreshes_below (informs n)
  say s message := .of_same (course_stable.say s message) rfl
  subscribe s name reaction := .of_same (course_stable.subscribe s name reaction) rfl

end Editor

end JadeEditor
