import JadeEditor.Proofs.Editor.Pending
import JadeEditor.Proofs.Editor.Round

/-!
# One announcement for each edit

A change outside all groups and an outermost group in which a change lasts are announced
once, when they are complete; nothing else is announced. So the version dates the lines:
whatever the listeners do, as long as the version is the same, so are the lines.
-/

namespace JadeEditor

set_option autoImplicit false

namespace Editor

/-! ## The version dates the lines -/

theorem version_roundStable : RoundStable fun s t : Editor => s.version ≤ t.version where
  refl _ := Nat.le_refl _
  trans := Nat.le_trans
  note _ _ := Nat.le_refl _
  dismiss _ _ := Nat.le_refl _
  spend _ _ := Nat.le_refl _
  raise _ := Nat.le_succ _
  rearrange _ _ _ _ := Nat.le_refl _

/-- A pending change raises the version, also if a listener fails. -/
theorem flush_version (s : Editor) : s.version + s.dirty.toNat ≤ (flush.after s).version := by
  cases hdirty : s.dirty with
  | false =>
    rw [Edit.after, flush_of_clean hdirty]
    exact Nat.le_refl _
  | true => exact version_roundStable.flush_raised hdirty

/-- The version does not go down, and while it stays nothing is noted, and the lines stay
if nothing is pending. -/
structure Dated (s t : Editor) : Prop where
  version : s.version ≤ t.version
  events : t.version = s.version → t.events = s.events
  lines : t.version = s.version → t.dirty = false →
    s.dirty = false ∧ t.document.lines = s.document.lines

theorem Dated.of_lt {s t : Editor} (h : s.version < t.version) : Dated s t :=
  ⟨Nat.le_of_lt h, fun heq => absurd heq (Nat.ne_of_gt h),
    fun heq => absurd heq (Nat.ne_of_gt h)⟩

theorem Dated.refl (s : Editor) : Dated s s :=
  ⟨Nat.le_refl _, fun _ => rfl, fun _ hclean => ⟨hclean, rfl⟩⟩

theorem Dated.trans {s t u : Editor} (hst : Dated s t) (htu : Dated t u) : Dated s u := by
  have hfirst := hst.version
  have hsecond := htu.version
  refine ⟨Nat.le_trans hfirst hsecond, fun heq => ?_, fun heq hclean => ?_⟩
  · exact (htu.events (by omega)).trans (hst.events (by omega))
  · obtain ⟨htclean, hulines⟩ := htu.lines (by omega) hclean
    obtain ⟨hsclean, htlines⟩ := hst.lines (by omega) htclean
    exact ⟨hsclean, hulines.trans htlines⟩

theorem flush_dated (s : Editor) : Dated s (flush.after s) := by
  cases hdirty : s.dirty with
  | false =>
    rw [Edit.after, flush_of_clean hdirty]
    exact .refl s
  | true =>
    have hrises := flush_version s
    rw [hdirty] at hrises
    exact .of_lt hrises

theorem mutate_dated (change : Document → Document) : Edit.Keeps Dated (mutate change) := by
  intro s
  unfold Edit.after mutate
  rw [mutateWith_eq]
  by_cases hdepth : s.depth = 0
  · rw [if_pos hdepth]
    exact .of_lt (flush_version (s.pending (change s.document)))
  · rw [if_neg hdepth]
    exact ⟨Nat.le_refl _, fun _ => rfl, fun _ hclean => absurd hclean Bool.noConfusion⟩

theorem closeGroup_dated (s : Editor) : Dated s (closeGroup.after s) := by
  have hsame : Dated s { s with depth := s.depth - 1 } :=
    ⟨Nat.le_refl _, fun _ => rfl, fun _ h => ⟨h, rfl⟩⟩
  unfold Edit.after
  rw [closeGroup_eq]
  by_cases houter : s.depth - 1 = 0
  · rw [if_pos houter]
    exact hsame.trans (flush_dated _)
  · rw [if_neg houter]
    exact hsame

theorem dated_stable : Stable Dated where
  refl := .refl
  trans := .trans
  setCursor _ _ := ⟨Nat.le_refl _, fun _ => rfl, fun _ h => ⟨h, rfl⟩⟩
  say _ _ := ⟨Nat.le_refl _, fun _ => rfl, fun _ h => ⟨h, rfl⟩⟩
  subscribe _ _ _ := ⟨Nat.le_refl _, fun _ => rfl, fun _ h => ⟨h, rfl⟩⟩
  unsubscribe _ _ := ⟨Nat.le_refl _, fun _ => rfl, fun _ h => ⟨h, rfl⟩⟩
  insert t := mutate_dated _
  breakLine := mutate_dated _
  indentLine level s := by
    change Dated s ((indentLine level).after s)
    unfold Edit.after
    rw [indentLine_eq]
    split
    · rename_i hsame
      exact ⟨Nat.le_refl _, fun _ => rfl, fun _ h => ⟨h, hsame⟩⟩
    · exact mutate_dated _ s
  group s r hr := by
    rw [finalEditor_endGroupWith]
    cases r with
    | ok a t =>
      have hbody : Dated s t := ⟨hr.version, hr.events, hr.lines⟩
      exact hbody.trans (closeGroup_dated t)
    | error e t =>
      have hback : Dated s (restore s t) := ⟨hr.version, hr.events, fun _ h => ⟨h, rfl⟩⟩
      exact hback.trans (closeGroup_dated _)

end Editor

theorem Action.record_eq (s : Session) (a : Action) :
    (a.run s).1.version = (a.run s).2.editor.version
      ∧ (a.run s).1.document = (a.run s).2.editor.document := by
  cases a <;> simp only [Action.run] <;> exact ⟨rfl, rfl⟩

/-- The records of a script that is run outside all groups. -/
theorem Session.run_dated {s : Session} (hs : s.editor.Sound) (hdepth : s.editor.depth = 0)
    (as : List Action) : ∀ r ∈ s.run as, s.editor.version ≤ r.version
      ∧ (r.version = s.editor.version → r.document.lines = s.editor.document.lines) := by
  have hrun : ∀ (as : List Action) (t : Session), t.editor.Sound → t.editor.depth = 0 →
      Editor.Dated s.editor t.editor → ∀ r ∈ t.run as, s.editor.version ≤ r.version
        ∧ (r.version = s.editor.version → r.document.lines = s.editor.document.lines) := by
    intro as
    induction as with
    | nil => exact fun _ _ _ _ r hr => absurd hr List.not_mem_nil
    | cons a as ih =>
      intro t ht htdepth hdated r hr
      obtain ⟨hsound, hsame⟩ := Editor.steady_stable.action t a ht
      have hnext := hdated.trans (Editor.dated_stable.action t a)
      rcases List.mem_cons.mp hr with rfl | hr
      · obtain ⟨hversion, hdocument⟩ := a.record_eq t
        rw [hversion, hdocument]
        refine ⟨hnext.version, fun heq => (hnext.lines heq ?_).2⟩
        exact hsound.settled (hsame.trans htdepth)
      · exact ih _ hsound (hsame.trans htdepth) hnext r hr
  exact hrun as s hs hdepth (.refl _)

/-! ## Edits outside all groups -/

namespace Editor

/-- From `s` to `t` nothing has been announced and the lines are the same; or, if `changed`,
one announcement has been made, to the listeners of `u`. -/
structure Announces (changed : Bool) (s u t : Editor) : Prop where
  version : t.version = s.version + changed.toNat
  silent : changed = false → t.events = s.events ∧ t.document.lines = s.document.lines
  told : changed = true → u.events = s.events ∧ ∃ called, Told u t called

theorem Untouched.announces {s t : Editor} (h : Untouched s t) (u : Editor) :
    Announces false s u t :=
  ⟨h.version, fun _ => ⟨h.events, congrArg Document.lines h.document⟩,
    fun h => absurd h Bool.noConfusion⟩

theorem Marks.announces {s t : Editor} (h : Marks false s t) (u : Editor) :
    Announces false s u t :=
  ⟨h.version, fun _ => ⟨h.events, h.lines rfl⟩, fun h => absurd h Bool.noConfusion⟩

theorem Announces.of_same {changed : Bool} {s u v t : Editor} (h : Announces changed s u t)
    (hlisteners : v.listeners = u.listeners) (hsubscriptions : v.subscriptions = u.subscriptions)
    (hevents : v.events = u.events) : Announces changed s v t := by
  refine ⟨h.version, h.silent, fun hchanged => ?_⟩
  obtain ⟨hunheard, called, htold⟩ := h.told hchanged
  have hended : ∀ l, v.ended l = u.ended l := by
    intro l
    unfold ended
    congr 1
    funext name
    rw [subscription?, hsubscriptions, subscription?]
  refine ⟨hevents.trans hunheard, called, ?_, ?_, ?_, ?_⟩
  · rw [hlisteners]
    exact htold.order
  · rw [hevents]
    exact htold.events
  · simp only [hended]
    exact htold.standing
  · simp only [hended, hlisteners]
    exact htold.passed

/-- What is pending when an edit that nobody has heard of is complete is announced once. -/
theorem flush_announces {changed : Bool} {s u : Editor} (hversion : u.version = s.version)
    (hevents : u.events = s.events) (hdirty : u.dirty = changed)
    (hlines : changed = false → u.document.lines = s.document.lines) (hu : u.WellFormed)
    (hpeaceful : Listening Reaction.peaceful u) : Announces changed s u (flush.after u) := by
  cases changed with
  | false =>
    rw [Edit.after, flush_of_clean hdirty]
    exact ⟨hversion, fun _ => ⟨hevents, hlines rfl⟩, fun h => absurd h Bool.noConfusion⟩
  | true =>
    obtain ⟨called, t, hflush, hannounced, htold⟩ := flush_tells hu hpeaceful hdirty
    rw [Edit.after, hflush, finalEditor_ok]
    refine ⟨?_, fun h => absurd h Bool.noConfusion, fun _ => ⟨hevents, called, htold⟩⟩
    rw [hannounced.version, hversion, if_pos hdirty]
    rfl

theorem mutate_announces {s : Editor} (hs : s.WellFormed) (hdepth : s.depth = 0)
    (hpeaceful : Listening Reaction.peaceful s) {change : Document → Document}
    (hchange : (change s.document).WellFormed) :
    Announces true s s ((mutate change).after s) := by
  let u := s.pending (change s.document)
  have hrun : mutate change s = flush u := if_pos hdepth
  have hannounces : Announces true s u (flush.after u) :=
    flush_announces rfl rfl rfl (fun h => absurd h Bool.noConfusion) (hs.of_same hchange rfl rfl)
      hpeaceful
  unfold Edit.after
  rw [hrun]
  exact hannounces.of_same rfl rfl rfl

theorem closeGroup_announces {changed : Bool} {s u : Editor} (hs : s.Sound) (hdepth : s.depth = 0)
    (hmarks : Marks changed s.openGroup u) (hu : u.WellFormed)
    (hpeaceful : Listening Reaction.peaceful u) : Announces changed s u (closeGroup.after u) := by
  let v := { u with depth := u.depth - 1 }
  have hinner : u.depth - 1 = 0 := by
    rw [hmarks.depth]
    exact hdepth
  have hclose : closeGroup u = flush v := if_pos hinner
  have hdirty : v.dirty = changed := by
    have hmark := hmarks.dirty
    rwa [show s.openGroup.dirty = false from hs.settled hdepth, Bool.false_or] at hmark
  have hannounces : Announces changed s v (flush.after v) := flush_announces hmarks.version
    hmarks.events hdirty hmarks.lines (hu.of_same hu.document rfl rfl) hpeaceful
  unfold Edit.after at hannounces ⊢
  rw [hclose]
  exact hannounces.of_same rfl rfl rfl

end Editor

theorem Operation.announces (indenter : Indenter Failure) {s : Editor} (hs : s.Sound)
    (hdepth : s.depth = 0) (hpeaceful : s.Listening Reaction.peaceful) {operation : Operation}
    (hsingle : operation.isCommand = false) :
    Editor.Announces (operation.changes indenter s) s s ((operation.run indenter).after s) := by
  cases hchanges : operation.changes indenter s with
  | false => exact (Operation.marks_of_idle hsingle hchanges).announces s
  | true =>
    have hwell := hs.wellFormed
    cases operation with
    | insertText t =>
      have hsome : ¬ t.isEmpty = true := by simpa [Operation.changes] using hchanges
      rw [Operation.run, Edit.after_give, Editor.insertText_eq, if_neg hsome]
      exact Editor.mutate_announces hwell hdepth hpeaceful
        (Document.wellFormed_insert hwell.document t)
    | insertLineBreak =>
      rw [Operation.run, Edit.after_give]
      exact Editor.mutate_announces hwell hdepth hpeaceful
        (Document.wellFormed_breakLine hwell.document)
    | indentLine target =>
      have hdiffers : ¬ (s.document.indentLine target).lines = s.document.lines :=
        bne_iff_ne.mp hchanges
      rw [Operation.run, Edit.after_give, Edit.after, Editor.indentLine_eq, if_neg hdiffers]
      exact Editor.mutate_announces hwell hdepth hpeaceful
        (Document.wellFormed_indentLine hwell.document target)
    | newline | newlineCommand | closeBrace | closeBraceCommand | indentCommand
    | reindent => cases hsingle
    | _ => cases hchanges

/-- The editor when the body of a group that is opened now has ended. -/
def Session.bodyEnd (s : Session) (body : List Action) : Editor :=
  (runGroup { s with editor := s.editor.openGroup } body).2.2.editor

theorem Action.atomic_announces {s : Session} (hs : s.editor.Sound) (hdepth : s.editor.depth = 0)
    (body : List Action) (result : Data)
    (hpeaceful : (s.bodyEnd body).Listening Reaction.peaceful) :
    let t := ((Action.atomic body result).run s).2.editor
    Editor.Announces ((Action.atomic body result).lasts s) s.editor (s.bodyEnd body) t
      ∧ (s.bodyFailure? body = none → t = Editor.closeGroup.after (s.bodyEnd body)) := by
  have hlasts : (Action.atomic body result).lasts s = ((s.bodyFailure? body).isNone
      && anyLasts { s with editor := s.editor.openGroup } body) := by rw [Action.lasts]
  rw [hlasts]
  cases hfailure : s.bodyFailure? body with
  | some e =>
    refine ⟨?_, fun h => absurd h (Option.some_ne_none e)⟩
    exact (Action.run_atomic_of_failure hs hfailure result).2.announces _
  | none =>
    have hbody : Editor.Marks (anyLasts { s with editor := s.editor.openGroup } body)
        s.editor.openGroup (s.bodyEnd body) := marksAll _ (Nat.succ_pos _) body
    have hwell : (s.bodyEnd body).WellFormed :=
      (Editor.steady_stable.actions _ body hs.openGroup).1.wellFormed
    have hend : ((Action.atomic body result).run s).2.editor
        = Editor.closeGroup.after (s.bodyEnd body) := by
      unfold Session.bodyFailure? at hfailure
      simp only [Action.run, Session.recorded, Session.conclude_editor, hfailure, Session.outcome,
        Editor.finalEditor_endGroup]
      rfl
    refine ⟨?_, fun _ => hend⟩
    rw [hend]
    exact Editor.closeGroup_announces hs hdepth hbody hwell hpeaceful

/-- Outside all groups, a single operation is announced once if it changes a line, and a group
is announced once if a change that was made in it lasts; otherwise nothing is announced and
the lines are the same. The listeners may move the cursor. The listeners hear of it when the edit is complete. The records of a
script show versions that do not go down, and as long as the version stays the lines do. -/
theorem edit_is_announced_once {s : Session} (hs : s.editor.Reachable)
    (hdepth : s.editor.depth = 0) :
    (∀ operation : Operation, operation.isCommand = false →
      s.editor.Listening Reaction.peaceful →
      Editor.Announces (operation.changes s.indenter s.editor) s.editor s.editor
        ((Action.perform operation).run s).2.editor)
    ∧ (∀ (body : List Action) (result : Data), (s.bodyEnd body).Listening Reaction.peaceful →
      let t := ((Action.atomic body result).run s).2.editor
      Editor.Announces ((Action.atomic body result).lasts s) s.editor (s.bodyEnd body) t
        ∧ (s.bodyFailure? body = none → t.document.lines = (s.bodyEnd body).document.lines
          ∧ ((s.bodyEnd body).Listening Reaction.harmless →
            t.document = (s.bodyEnd body).document)))
    ∧ ∀ (actions : List Action), ∀ r ∈ s.run actions, s.editor.version ≤ r.version
      ∧ (r.version = s.editor.version → r.document.lines = s.editor.document.lines) := by
  refine ⟨?_, ?_, Session.run_dated hs.sound hdepth⟩
  · intro operation hsingle hpeaceful
    have hannounces := Operation.announces s.indenter hs.sound hdepth hpeaceful hsingle
    simp only [Action.run, Session.recorded, Session.conclude_editor]
    exact hannounces
  · intro body result hpeaceful
    obtain ⟨hannounces, hend⟩ := Action.atomic_announces hs.sound hdepth body result hpeaceful
    refine ⟨hannounces, fun hdone => ?_⟩
    rw [hend hdone]
    constructor
    · exact (Editor.closeGroup_facing Editor.agreeable_peaceful.toOnlooking
        fun _ => hpeaceful).1.lines
    · intro hharmless
      exact (Editor.closeGroup_facing Editor.agreeable_harmless.toOnlooking
        fun _ => hharmless).1.eq

/-- A text typed in a group, before an inner group that fails, with three listeners: the first
one ends its own subscription, and the second one moves the cursor. -/
theorem typing_around_failure_is_announced_once :
    let editor := (((Editor.ofDocument (.ofLines [utf16 "ab"])).subscribe (utf16 "f")
      (.dismiss (utf16 "f"))).subscribe (utf16 "g")
      { turns := [.stroke (.moveTo ⟨0, 2⟩) .done] }).subscribe (utf16 "h") .outline
    let s : Session := ⟨editor, .lookback 4, 0, 0⟩
    let inner : List Action := [.perform .insertLineBreak, .perform (.fail (utf16 "no"))]
    let body : List Action := [.perform (.insertText (utf16 "x")), .attempt [.atomic inner .null]]
    let t := ((Action.atomic body .null).run s).2.editor
    t.version = 1 ∧ t.document.lines = [utf16 "xab"] ∧ t.document.cursor = ⟨0, 2⟩
      ∧ t.events.length = 4 ∧ ∃ called, Editor.Told (s.bodyEnd body) t called := by
  intro editor s inner body t
  have hs : s.editor.Reachable :=
    (((Editor.Reachable.start _).subscribe _ _).subscribe _ _).subscribe _ _
  have hpeaceful : ∀ l ∈ (s.bodyEnd body).listeners, l.reaction.peaceful = true := by
    decide +kernel
  have hlasts : (Action.atomic body .null).lasts s = true := by decide +kernel
  obtain ⟨-, hgroup, -⟩ := edit_is_announced_once hs rfl
  obtain ⟨hannounces, hdocument⟩ := hgroup body .null hpeaceful
  have hversion := hannounces.version
  rw [hlasts] at hversion
  have hend : (s.bodyEnd body).document.lines = [utf16 "xab"] := by decide +kernel
  have hfailure : s.bodyFailure? body = none := by decide +kernel
  have ht : t = ((Action.atomic body .null).run s).2.editor := rfl
  have hlines := (hdocument hfailure).1.trans hend
  rw [← ht] at hlines
  exact ⟨hversion, hlines, by decide +kernel, by decide +kernel, (hannounces.told hlasts).2⟩

end JadeEditor
