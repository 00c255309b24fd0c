import JadeEditor.Proofs.Editor.Notification
import JadeEditor.Proofs.Editor.Onlooker

/-!
# Who is called in a round

A round goes through the subscriptions that are live at its start, in their order. Among
peaceful listeners each is called once, with the version and the lines the round began
with, unless a listener called in the same round has ended its subscription.
-/

namespace JadeEditor

set_option autoImplicit false

namespace Editor

/-- The numbers of the subscriptions that a listener ends when it is called. -/
def ended (s : Editor) (l : Listener) : List Nat := l.reaction.dismissed.filterMap s.subscription?

theorem notes_of_lines {d e : Document} (h : e.lines = d.lines) (version : Nat) (l : Listener) :
    l.notes version e = l.notes version d := by
  rw [Listener.notes, Listener.notes, Document.outline, Document.outline, h]

/-! ## Finding a listener -/

theorem listener?_of_mem {s : Editor} (hs : s.WellFormed) {l : Listener} (hl : l ∈ s.listeners) :
    s.listener? l.key = some l := by
  have found : ∀ ls : List Listener, (ls.map Listener.key).Nodup → l ∈ ls →
      (ls.find? fun m => m.key = l.key) = some l := by
    intro ls
    induction ls with
    | nil => exact fun _ hmem => absurd hmem List.not_mem_nil
    | cons m ls ih =>
      intro hnodup hmem
      rw [List.map_cons, List.nodup_cons] at hnodup
      rcases List.mem_cons.mp hmem with rfl | hmem
      · simp
      · have hne : m.key ≠ l.key := fun heq => hnodup.1 (List.mem_map.mpr ⟨l, hmem, heq.symm⟩)
        rw [List.find?_cons_of_neg (by simpa using hne)]
        exact ih hnodup.2 hmem
  exact found s.listeners hs.distinct hl

theorem listener?_without (s : Editor) (names : List Text) (key : Nat) :
    (s.without names).listener? key
      = if key ∈ names.filterMap s.subscription? then none else s.listener? key := by
  simp only [listener?, without, List.find?_filter]
  split
  · rename_i hends
    obtain ⟨name, hname, hkey⟩ := List.mem_filterMap.mp hends
    rw [List.find?_eq_none]
    intro l _
    simp only [List.all_eq_true, decide_eq_true_eq, not_and]
    exact fun hstands hsame => hstands name hname (hsame ▸ hkey)
  · rename_i hstands
    congr 1
    funext l
    by_cases hl : l.key = key
    · have hall : (names.all fun name => decide (s.subscription? name ≠ some l.key)) = true := by
        rw [List.all_eq_true]
        intro name hname
        rw [decide_eq_true_eq]
        exact fun hends => hstands (List.mem_filterMap.mpr ⟨name, hname, hl ▸ hends⟩)
      rw [hall]
      simp
    · simp [hl]

theorem listener?_spend (s : Editor) {spent key : Nat} (hkey : key ≠ spent) :
    (s.spend spent).listener? key = s.listener? key := by
  have hsame : ∀ l : Listener, (if l.key = spent then l.spent else l).key = l.key := by
    intro l
    split <;> rfl
  simp only [listener?, spend, List.find?_map]
  have hfind : ((fun l : Listener => decide (l.key = key))
      ∘ fun l : Listener => if l.key = spent then l.spent else l)
      = fun l => decide (l.key = key) := by
    funext l
    simp only [Function.comp_apply, hsame]
  rw [hfind]
  cases hl : s.listeners.find? fun l => l.key = key with
  | none => rfl
  | some l =>
    have hne : l.key ≠ spent := by
      have hfound : l.key = key := by simpa using List.find?_some hl
      rw [hfound]
      exact hkey
    rw [Option.map_some, if_neg hne]

/-- What the other listeners have become behind a call. -/
theorem listener?_behind (s : Editor) {l : Listener} {key : Nat} (hkey : key ≠ l.key) :
    (s.behind l).listener? key = if key ∈ s.ended l then none else s.listener? key := by
  have hnoted : (s.noted l).listener? key = s.listener? key := listener?_spend s hkey
  change ((s.noted l).without l.reaction.dismissed).listener? key = _
  rw [listener?_without, hnoted]
  rfl

/-! ## One round -/

/-- The listeners `called` of the list `ls` have been called on the way from `s` to `t`,
each once, in their order and not after one that dismisses it. Every other one of the list
was not live, or was dismissed by one that was called before its turn. -/
structure Called (s t : Editor) (ls called : List Listener) : Prop where
  order : called.Sublist ls
  live : ∀ l ∈ called, s.listener? l.key = some l
  standing : called.Pairwise fun m l => l.key ∉ s.ended m
  events : t.events = s.events ++ called.flatMap (Listener.notes s.version s.document)
  gone : ∀ key, s.listener? key = none → t.listener? key = none
  passed : ∀ l ∈ ls, l ∉ called → t.listener? l.key = none
    ∧ (s.listener? l.key = none ∨ ∃ m ∈ called, [m, l].Sublist ls ∧ l.key ∈ s.ended m)

theorem Called.nil (s : Editor) : Called s s [] [] where
  order := .slnil
  live _ hl := absurd hl List.not_mem_nil
  standing := .nil
  events := (List.append_nil _).symm
  gone _ h := h
  passed _ hl := absurd hl List.not_mem_nil

theorem Called.cons_gone {s t : Editor} {ls called : List Listener} {l : Listener}
    (hl : s.listener? l.key = none) (h : Called s t ls called) : Called s t (l :: ls) called where
  order := h.order.cons l
  live := h.live
  standing := h.standing
  events := h.events
  gone := h.gone
  passed m hm hnot := by
    rcases List.mem_cons.mp hm with rfl | hm
    · exact ⟨h.gone _ hl, .inl hl⟩
    · obtain ⟨hgone, hwhy⟩ := h.passed m hm hnot
      refine ⟨hgone, hwhy.imp_right ?_⟩
      rintro ⟨k, hk, hbefore, hends⟩
      exact ⟨k, hk, hbefore.cons l, hends⟩

section Live

variable {s t : Editor} {ls called : List Listener} {l : Listener}
  (hothers : ∀ m ∈ ls, m.key ≠ l.key) (h : Called (s.behind l) t ls called)
include hothers h

/-- Whoever is called later was still live once `l` had reacted. -/
theorem Called.later {m : Listener} (hm : m ∈ called) :
    m.key ∉ s.ended l ∧ s.listener? m.key = some m := by
  have hlive := h.live m hm
  rw [listener?_behind s (hothers m (h.order.subset hm))] at hlive
  split at hlive
  · cases hlive
  · rename_i hstands
    exact ⟨hstands, hlive⟩

/-- Whoever is passed over later was not live, or `l` or another one has dismissed it. -/
theorem Called.passed_later {m : Listener} (hm : m ∈ ls) (hnot : m ∉ called) :
    t.listener? m.key = none ∧ (s.listener? m.key = none
      ∨ ∃ k ∈ l :: called, [k, m].Sublist (l :: ls) ∧ m.key ∈ s.ended k) := by
  obtain ⟨hgone, hwhy⟩ := h.passed m hm hnot
  refine ⟨hgone, ?_⟩
  rcases hwhy with hnone | ⟨k, hk, hbefore, hends⟩
  · rw [listener?_behind s (hothers m hm)] at hnone
    split at hnone
    · rename_i hends
      exact .inr ⟨l, List.mem_cons_self, (List.singleton_sublist.mpr hm).cons_cons l, hends⟩
    · exact .inl hnone
  · exact .inr ⟨k, List.mem_cons_of_mem l hk, hbefore.cons l, hends⟩

theorem Called.cons_live (hl : s.listener? l.key = some l) :
    Called s t (l :: ls) (l :: called) where
  order := h.order.cons_cons l
  live m hm := by
    rcases List.mem_cons.mp hm with rfl | hm
    · exact hl
    · exact (h.later hothers hm).2
  standing := List.pairwise_cons.mpr ⟨fun _ hm => (h.later hothers hm).1, h.standing⟩
  events := by
    have hnotes : Listener.notes (s.behind l).version (s.behind l).document
        = Listener.notes s.version s.document :=
      funext fun m => notes_of_lines (Turn.lines_lead _ s.document) s.version m
    rw [h.events, hnotes, List.flatMap_cons, ← List.append_assoc]
    rfl
  gone key hnone := by
    have hne : key ≠ l.key := by
      rintro rfl
      rw [hl] at hnone
      cases hnone
    apply h.gone
    rw [listener?_behind s hne, hnone, ite_self]
  passed m hm hnot := by
    rw [List.mem_cons, not_or] at hnot
    exact h.passed_later hothers ((List.mem_cons.mp hm).resolve_left hnot.1) hnot.2

end Live

/-- A round over listeners each of which is live as it is given, or not live any more. -/
theorem callAll_called {ls : List Listener} (hkeys : (ls.map Listener.key).Nodup) {s : Editor}
    (hclean : s.dirty = false) (hs : Listening Reaction.peaceful s)
    (hlive : ∀ l ∈ ls, s.listener? l.key = some l ∨ s.listener? l.key = none) :
    ∃ (called : List Listener) (t : Editor),
      callAll flush (ls.map Listener.key) s = .ok () t ∧ Called s t ls called := by
  induction ls generalizing s with
  | nil => exact ⟨[], s, rfl, .nil s⟩
  | cons l ls ih =>
    rw [List.map_cons, List.nodup_cons] at hkeys
    have hothers : ∀ m ∈ ls, m.key ≠ l.key := fun m hm heq =>
      hkeys.1 (List.mem_map.mpr ⟨m, hm, heq⟩)
    rw [List.map_cons, callAll_cons]
    rcases hlive l List.mem_cons_self with hl | hl
    · have hcall := call_of_agreeable agreeable_peaceful hclean hs (mem_of_listener? hl)
      have hstill : ∀ m ∈ ls,
          (s.behind l).listener? m.key = some m ∨ (s.behind l).listener? m.key = none := by
        intro m hm
        rw [listener?_behind s (hothers m hm)]
        split
        · exact .inr rfl
        · exact hlive m (List.mem_cons_of_mem l hm)
      have hlistening : Listening Reaction.peaceful (s.behind l) :=
        hs.turned agreeable_peaceful.toOnlooking l _ _
      obtain ⟨called, t, hrun, hcalled⟩ := ih hkeys.2 (s := s.behind l) hclean hlistening hstill
      refine ⟨l :: called, t, ?_, hcalled.cons_live hothers hl⟩
      simp only [hl]
      rw [Edit.bind_ok hcall]
      exact hrun
    · obtain ⟨called, t, hrun, hcalled⟩ := ih hkeys.2 hclean hs fun m hm =>
        hlive m (List.mem_cons_of_mem l hm)
      refine ⟨called, t, ?_, hcalled.cons_gone hl⟩
      simp only [hl]
      exact hrun

/-- The listeners of `s` have been told of the lines and the version of `t`: those in
`called`, each once and in the order of subscription. One that was passed over is not
subscribed any more, since one that was called before its turn had dismissed it. -/
structure Told (s t : Editor) (called : List Listener) : Prop where
  order : called.Sublist s.listeners
  events : t.events = s.events ++ called.flatMap (Listener.notes t.version t.document)
  standing : called.Pairwise fun m l => l.key ∉ s.ended m
  passed : ∀ l ∈ s.listeners, l ∉ called → t.listener? l.key = none
    ∧ ∃ m ∈ called, [m, l].Sublist s.listeners ∧ l.key ∈ s.ended m

/-- The announcement of a change among peaceful listeners. -/
theorem flush_tells {s : Editor} (hs : s.WellFormed) (hpeaceful : Listening Reaction.peaceful s)
    (hdirty : s.dirty = true) :
    ∃ (called : List Listener) (t : Editor), flush s = .ok () t ∧ Announced true s t
      ∧ Told s t called := by
  have hlive : ∀ l ∈ s.listeners, s.listener? l.key = some l := fun l hl => listener?_of_mem hs hl
  obtain ⟨called, t, hrun, hcalled⟩ := callAll_called hs.distinct
    (s := { s with dirty := false, version := s.version + 1 }) rfl hpeaceful fun l hl =>
    .inl (hlive l hl)
  have hflush : flush s = .ok () t := (flush_of_dirty hdirty).trans hrun
  obtain ⟨hannounced, -⟩ := flush_announced agreeable_peaceful.toOnlooking hpeaceful
  rw [Edit.after, hflush, finalEditor_ok] at hannounced
  refine ⟨called, t, hflush, hannounced, hcalled.order, ?_, hcalled.standing, ?_⟩
  · have hnotes : Listener.notes t.version t.document
        = Listener.notes (s.version + 1) s.document := by
      rw [hannounced.version, if_pos hdirty]
      exact funext (notes_of_lines hannounced.document.lines _)
    rw [hnotes]
    exact hcalled.events
  · intro l hl hnot
    obtain ⟨hgone, hwhy⟩ := hcalled.passed l hl hnot
    refine ⟨hgone, hwhy.resolve_left fun hnone => ?_⟩
    cases (hlive l hl).symm.trans hnone

end Editor

end JadeEditor
