import JadeEditor.Proofs.Editor.Informed

/-!
# Listeners keep abreast of the document

Once the version has gone up, whoever was subscribed before that and still is has seen the
lines of the moment whenever control is back outside all groups. The argument goes along
the run: what raises the version informs everyone, and whatever does not raise it changes
neither the lines that were announced nor what anyone has noted.
-/

namespace JadeEditor

set_option autoImplicit false

namespace Editor

variable {s t u : Editor}

/-- The relation holds from the opening of each group to what comes up in it. -/
def Linked (R : Editor → Editor → Prop) : List Editor → Editor → Prop
  | [], _ => True
  | before :: groups, s => R before.openGroup s ∧ Linked R groups before

theorem Linked.trans {R : Editor → Editor → Prop} (hR : Composable R) {groups : List Editor}
    (h : Linked R groups s) (hst : R s t) : Linked R groups t := by
  cases groups with
  | nil => trivial
  | cons before groups => exact ⟨hR.trans h.1 hst, h.2⟩

theorem Underway.linked {R : Editor → Editor → Prop} (hR : Stable R) {groups : List Editor}
    (h : Underway groups s) : Linked R groups s := by
  induction h with
  | start lines => trivial
  | perform indenter operation _ ih => exact ih.trans hR.toComposable (hR.operation _ _ _)
  | enter _ ih => exact ⟨hR.refl _, ih⟩
  | leave r _ ih => exact Linked.trans hR.toComposable ih.2 (hR.group _ r ih.1)
  | hear | hearGroup => trivial

/-- The editors that come up from `s` on, where the groups in progress were `opened`. -/
inductive Since (opened : List Editor) (s : Editor) : List Editor → Editor → Prop where
  | now : Since opened s opened s
  | perform {groups : List Editor} {t : Editor} (indenter : Indenter Failure)
      (operation : Operation) :
      Since opened s groups t → Since opened s groups ((operation.run indenter).after t)
  | enter {groups : List Editor} {t : Editor} :
      Since opened s groups t → Since opened s (t :: groups) t.openGroup
  | leave {groups : List Editor} {before : Editor} (r : EStateM.Result Failure Editor Unit) :
      Since opened s (before :: groups) (finalEditor r) →
        Since opened s groups (finalEditor (endGroup before r))

theorem Since.underway {opened groups : List Editor} (h : Since opened s groups t)
    (hs : Underway opened s) : Underway groups t := by
  induction h with
  | now => exact hs
  | perform indenter operation _ ih => exact ih.perform indenter operation
  | enter _ ih => exact ih.enter
  | leave r _ ih => exact ih.leave r

/-- The editor on which the outermost group was opened; its lines are those that were
announced last. -/
def outermost (t : Editor) : List Editor → Editor
  | [] => t
  | before :: groups => outermost before groups

/-- Those who were subscribed in `s` are up to date with what was announced last, if that
was later than `s`. -/
structure Abreast (s : Editor) (groups : List Editor) (t : Editor) : Prop where
  subscriptions : s.subscriptions.length ≤ t.subscriptions.length
  upToDate : s.version < t.version → t.Calm → ∀ l ∈ t.listeners,
    l.key < s.subscriptions.length → UpToDate t.events (t.outermost groups).document l

theorem Abreast.of_same {groups groups' : List Editor} (h : Abreast s groups t)
    (hlineage : Lineage t u) (hversion : u.version = t.version) (hevents : u.events = t.events)
    (hlines : (u.outermost groups').document.lines = (t.outermost groups).document.lines) :
    Abreast s groups' u := by
  refine ⟨Nat.le_trans h.subscriptions hlineage.subscriptions, ?_⟩
  intro hraised hcalm l hl hkey
  apply hlineage.upToDate hevents hlines hl (Nat.lt_of_lt_of_le hkey h.subscriptions)
  intro m hm hmkey
  rw [hversion] at hraised
  exact h.upToDate hraised (hcalm.before hlineage) m hm (hmkey ▸ hkey)

theorem Abreast.renew {groups : List Editor} (h : Abreast s groups t) (hlineage : Lineage t u)
    (hinformed : u.Calm → ∀ l ∈ u.listeners, l.key < t.subscriptions.length →
      UpToDate u.events u.document l) : Abreast s [] u := by
  refine ⟨Nat.le_trans h.subscriptions hlineage.subscriptions, ?_⟩
  intro _ hcalm l hl hkey
  exact hinformed hcalm l hl (Nat.lt_of_lt_of_le hkey h.subscriptions)

theorem Abreast.perform {groups : List Editor} (h : Abreast s groups t) (ht : Underway groups t)
    (indenter : Indenter Failure) (operation : Operation) :
    Abreast s groups ((operation.run indenter).after t) := by
  obtain ⟨hsound, hdepth, -⟩ := ht.sound
  have hstep := refreshes_stable.operation indenter operation t
  obtain ⟨⟨hsteady, hdated⟩, hquiet, hlineage⟩ := hstep.course
  cases groups with
  | nil =>
    rcases Nat.lt_or_eq_of_le hdated.version with hraised | hsame
    · exact h.renew hlineage (hstep.upToDate hsound hdepth hraised)
    · obtain ⟨hnext, hsameDepth⟩ := hsteady hsound
      have hclean := hnext.settled (hsameDepth.trans hdepth)
      exact h.of_same hlineage hsame.symm (hdated.events hsame.symm)
        (hdated.lines hsame.symm hclean).2
  | cons before groups =>
    have hopen : 0 < t.depth := hdepth ▸ Nat.succ_pos _
    exact h.of_same hlineage (hquiet hopen).version (hquiet hopen).events rfl

theorem Abreast.leave {groups : List Editor} {before : Editor}
    {r : EStateM.Result Failure Editor Unit} (h : Abreast s (before :: groups) (finalEditor r))
    (hr : Underway (before :: groups) (finalEditor r)) :
    Abreast s groups (finalEditor (endGroup before r)) := by
  obtain ⟨-, -, hbefore, hdepth, -⟩ := hr.sound
  obtain ⟨hbody, -⟩ := hr.linked course_stable
  have hunheard : Unheard before.openGroup (finalEditor r) := by
    obtain ⟨-, hsilent, -⟩ := hbody
    exact hsilent (Nat.succ_pos _)
  have hversion : (finalEditor r).version = before.version := hunheard.version
  have hevents : (finalEditor r).events = before.events := hunheard.events
  have hlineage := endGroup_lineage before r
  obtain ⟨⟨hsteady, hdated⟩, hquiet, -⟩ := course_stable.group before r hbody
  cases groups with
  | nil =>
    rcases Nat.lt_or_eq_of_le hdated.version with hraised | hsame
    · apply h.renew hlineage
      intro hcalm l hl _
      exact endGroup_informs (informs _) hbefore hdepth hbody (Nat.lt_succ_self _) hraised hcalm l hl
    · -- The group has come to nothing: the lines are those it was opened on.
      obtain ⟨hnext, hsameDepth⟩ := hsteady hbefore
      have hclean := hnext.settled (hsameDepth.trans hdepth)
      exact h.of_same hlineage (hsame.symm.trans hversion.symm)
        ((hdated.events hsame.symm).trans hevents.symm) (hdated.lines hsame.symm hclean).2
  | cons outer groups =>
    have hopen : 0 < before.depth := hdepth ▸ Nat.succ_pos _
    exact h.of_same hlineage ((hquiet hopen).version.trans hversion.symm)
      ((hquiet hopen).events.trans hevents.symm) rfl

theorem Since.abreast {opened groups : List Editor} (hs : Underway opened s)
    (h : Since opened s groups t) : Abreast s groups t := by
  induction h with
  | now => exact ⟨Nat.le_refl _, fun hraised => absurd hraised (Nat.lt_irrefl _)⟩
  | perform indenter operation hsince ih => exact ih.perform (hsince.underway hs) indenter operation
  | enter hsince ih => exact ih.of_same (.of_same rfl rfl rfl) rfl rfl rfl
  | leave r hsince ih => exact ih.leave (hsince.underway hs)

end Editor

/-- Listeners may make any edits in their turns, in groups of their own and with failures that
they catch, and may end the subscriptions of others and their own. As long as none fails, whoever
was subscribed at some moment, still is, and has had the version go up in between, saw the current
lines when it was last called; and the outline that one computed last is the current one. -/
theorem listeners_are_up_to_date {opened groups : List Editor} {s t : Editor}
    (hs : Editor.Underway opened s) (hsince : Editor.Since opened s groups t)
    (hdepth : t.depth = 0) (hraised : s.version < t.version) (hcalm : t.Calm)
    {l : Listener} (hl : l ∈ t.listeners) (hbefore : l.key ∈ s.listeners.map Listener.key) :
    Event.lastSeen? l.key t.events = some t.document.lines
      ∧ (l.reaction.habit = .outline → Event.lastOutline? l.key t.events = some t.document.outline) := by
  obtain ⟨hsound, -, -⟩ := hs.sound
  obtain ⟨-, hgroups, -⟩ := (hsince.underway hs).sound
  obtain rfl : groups = [] := List.eq_nil_of_length_eq_zero (hgroups.symm.trans hdepth)
  have hkey : l.key < s.subscriptions.length := by
    obtain ⟨m, hm, hmkey⟩ := List.mem_map.mp hbefore
    rw [← hmkey]
    exact hsound.wellFormed.fresh m hm
  obtain ⟨hseen, houtlined⟩ := (hsince.abreast hs).upToDate hraised hcalm l hl hkey
  exact ⟨hseen, houtlined⟩

/-- A group in which the last of four listeners is subscribed. In its first turn the first one
inserts two texts and ends the subscription of the third, and inserts another text in its second
turn; the second one breaks off a group of its own. -/
theorem outline_is_current_behind_nested_rounds :
    let turn : Turn := .stroke (.insertText (utf16 "fn b()")) (.stroke (.unsubscribe (utf16 "w"))
      (.stroke (.insertText (utf16 "\n")) .done))
    let body : Turn := .stroke .insertLineBreak (.fail (.raised (utf16 "no")))
    let before := (((Editor.ofDocument (.ofLines [])).subscribe (utf16 "i")
      { turns := [turn, .stroke (.insertText (utf16 "//")) .done] }).subscribe (utf16 "g")
      { turns := [.attempt (.atomic body .done) .done] }).subscribe (utf16 "w") .watch
    let s := before.openGroup.subscribe (utf16 "o") .outline
    let edited := ((Operation.insertText (utf16 "fn a()\n")).run (.lookback 4)).after s
    let t := finalEditor (Editor.endGroup before (.ok () edited : EStateM.Result _ _ Unit))
    t.version = 4 ∧ t.events.length = 18 ∧ t.listeners.map Listener.key = [0, 1, 3]
      ∧ Event.lastSeen? 3 t.events = some [utf16 "fn a()", utf16 "fn b()//", []]
      ∧ Event.lastOutline? 3 t.events = some t.document.outline := by
  intro turn body before s edited t
  have hbefore : Editor.Underway [] before :=
    .perform (.lookback 4) (.subscribe (utf16 "w") .watch)
      (.perform (.lookback 4) (.subscribe (utf16 "g") { turns := [.attempt (.atomic body .done) .done] })
        (.perform (.lookback 4) (.subscribe (utf16 "i")
          { turns := [turn, .stroke (.insertText (utf16 "//")) .done] }) (.start [])))
  have hs : Editor.Underway [before] s :=
    hbefore.enter.perform (.lookback 4) (.subscribe (utf16 "o") .outline)
  have hsince : Editor.Since [before] s [] t :=
    .leave (.ok () edited) (.perform (.lookback 4) (.insertText (utf16 "fn a()\n")) .now)
  have hl : (⟨3, utf16 "o", .outline⟩ : Listener) ∈ t.listeners := by decide +kernel
  obtain ⟨hseen, houtlined⟩ := listeners_are_up_to_date hs hsince (by decide +kernel)
    (by decide +kernel) (by decide +kernel) hl (by decide +kernel)
  have hlines : t.document.lines = [utf16 "fn a()", utf16 "fn b()//", []] := by decide +kernel
  rw [hlines] at hseen
  exact ⟨by decide +kernel, by decide +kernel, by decide +kernel, hseen, houtlined rfl⟩

end JadeEditor
