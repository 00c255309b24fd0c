import JadeEditor.Proofs.Editor.Nesting

/-!
# Turns that leave the text alone

All that a turn without a change of the text can do is end subscriptions, put the cursor
elsewhere and fail. What it ends and where the cursor goes can be read off the turn, so the
call of such a listener has a closed form.
-/

namespace JadeEditor

set_option autoImplicit false

namespace Stroke

/-- The edit may change the text. -/
def writes : Stroke → Bool
  | insertLineBreak | indentLine _ => true
  | insertText t => !t.isEmpty
  | moveTo _ | unsubscribe _ => false

/-- The edit moves the cursor or may change the text. -/
def edits : Stroke → Bool
  | moveTo _ => true
  | stroke => stroke.writes

/-- The document behind the edit, if it does not change the text. -/
def lead : Stroke → Document → Document
  | moveTo p, d => d.moveTo p
  | _, d => d

def dismissed : Stroke → List Text
  | unsubscribe name => [name]
  | _ => []

end Stroke

namespace Turn

/-- One of the edits of the turn has the property. -/
def any (p : Stroke → Bool) : Turn → Bool
  | done | fail _ => false
  | stroke s rest => p s || rest.any p
  | atomic body rest | attempt body rest => body.any p || rest.any p

/-- The turn fails of itself. -/
def fails : Turn → Bool
  | done => false
  | fail _ => true
  | stroke _ rest => rest.fails
  | atomic body rest => body.fails || rest.fails
  | attempt _ rest => rest.fails

/-- The document behind the turn, if it does not change the text. -/
def lead : Turn → Document → Document
  | done, d | fail _, d => d
  | stroke s rest, d => rest.lead (s.lead d)
  | atomic body rest, d => if body.fails then d else rest.lead (body.lead d)
  | attempt body rest, d => rest.lead (body.lead d)

/-- The names whose subscriptions the turn ends, if it does not change the text. -/
def dismissed : Turn → List Text
  | done | fail _ => []
  | stroke s rest => s.dismissed ++ rest.dismissed
  | atomic body rest => body.dismissed ++ if body.fails then [] else rest.dismissed
  | attempt body rest => body.dismissed ++ rest.dismissed

end Turn

namespace Reaction

/-- One of the turns may change the text. -/
def writes (r : Reaction) : Bool := r.turns.any (Turn.any Stroke.writes)

/-- One of the turns moves the cursor or may change the text. -/
def edits (r : Reaction) : Bool := r.turns.any (Turn.any Stroke.edits)

/-- The next call fails of itself. -/
def fails (r : Reaction) : Bool := r.habit = .refuse || r.turn.fails

/-- No call fails of itself. -/
def willing (r : Reaction) : Bool := r.habit != .refuse && !r.turns.any Turn.fails

/-- The listener does not change the text, and does not fail. -/
def peaceful (r : Reaction) : Bool := !r.writes && r.willing

/-- The listener does not move the cursor either. -/
def harmless (r : Reaction) : Bool := !r.edits && r.willing

/-- The names whose subscriptions the next call ends, unless it fails. -/
def dismissed (r : Reaction) : List Text :=
  match r.habit with
  | .dismiss target => target :: r.turn.dismissed
  | _ => r.turn.dismissed

theorem any_turn {p : Stroke → Bool} {r : Reaction} (h : r.turns.any (Turn.any p) = false) :
    r.turn.any p = false := by
  unfold turn
  cases hturns : r.turns with
  | nil => rfl
  | cons turn turns =>
    rw [hturns, List.any_cons, Bool.or_eq_false_iff] at h
    exact h.1

theorem not_fails_of_willing {r : Reaction} (h : r.willing = true) : r.fails = false := by
  unfold fails turn
  cases hturns : r.turns with
  | nil => simp_all [willing, Turn.fails]
  | cons turn turns => simp_all [willing]

theorem willing_spent {r : Reaction} (h : r.willing = true) : r.spent.willing = true := by
  unfold willing spent at *
  cases hturns : r.turns <;> simp_all

theorem any_spent {p : Stroke → Bool} {r : Reaction} (h : r.turns.any (Turn.any p) = false) :
    r.spent.turns.any (Turn.any p) = false := by
  unfold spent
  cases hturns : r.turns <;> simp_all

end Reaction

theorem Stroke.edits_of_writes {stroke : Stroke} (h : stroke.writes = true) :
    stroke.edits = true := by
  cases stroke with
  | moveTo => rfl
  | insertText | insertLineBreak | indentLine | unsubscribe => exact h

theorem Turn.any_mono {p q : Stroke → Bool} (h : ∀ stroke, p stroke = true → q stroke = true)
    {turn : Turn} (hturn : turn.any q = false) : turn.any p = false := by
  induction turn with
  | done | fail => rfl
  | stroke stroke rest ih =>
    obtain ⟨hstroke, hrest⟩ := Bool.or_eq_false_iff.mp hturn
    have hnot : p stroke = false := by
      rw [Bool.eq_false_iff]
      exact fun hyes => Bool.eq_false_iff.mp hstroke (h stroke hyes)
    exact Bool.or_eq_false_iff.mpr ⟨hnot, ih hrest⟩
  | atomic body rest ihbody ih | attempt body rest ihbody ih =>
    obtain ⟨hbody, hrest⟩ := Bool.or_eq_false_iff.mp hturn
    exact Bool.or_eq_false_iff.mpr ⟨ihbody hbody, ih hrest⟩

theorem Reaction.writes_of_edits {r : Reaction} (h : r.edits = false) : r.writes = false := by
  rw [writes, List.any_eq_false]
  intro turn hturn
  have hnot : turn.any Stroke.edits = false := Bool.eq_false_iff.mpr (List.any_eq_false.mp h turn hturn)
  rw [Turn.any_mono (fun _ => Stroke.edits_of_writes) hnot]
  exact Bool.false_ne_true

/-! ## Where the cursor goes -/

/-- The same lines, and the cursor in the same place unless it is free. -/
structure Document.Alike (free : Bool) (d e : Document) : Prop where
  lines : e.lines = d.lines
  cursor : free = false → e.cursor = d.cursor

namespace Document.Alike

variable {free : Bool} {d e f : Document}

theorem refl (free : Bool) (d : Document) : d.Alike free d := ⟨rfl, fun _ => rfl⟩

theorem trans (hde : d.Alike free e) (hef : e.Alike free f) : d.Alike free f :=
  ⟨hef.lines.trans hde.lines, fun h => (hef.cursor h).trans (hde.cursor h)⟩

theorem eq (h : d.Alike false e) : e = d := by
  obtain ⟨hlines, hcursor⟩ := h
  cases d
  cases e
  cases hlines
  cases hcursor rfl
  rfl

end Document.Alike

theorem Turn.lines_lead (turn : Turn) (d : Document) : (turn.lead d).lines = d.lines := by
  induction turn generalizing d with
  | done | fail => rfl
  | stroke stroke rest ih =>
    refine (ih (stroke.lead d)).trans ?_
    cases stroke <;> rfl
  | atomic body rest ihbody ih =>
    rw [lead]
    split
    · rfl
    · exact (ih (body.lead d)).trans (ihbody d)
  | attempt body rest ihbody ih => exact (ih (body.lead d)).trans (ihbody d)

theorem Turn.lead_of_still {turn : Turn} (h : turn.any Stroke.edits = false) (d : Document) :
    turn.lead d = d := by
  induction turn generalizing d with
  | done | fail => rfl
  | stroke stroke rest ih =>
    obtain ⟨hstroke, hrest⟩ := Bool.or_eq_false_iff.mp h
    have hstays : stroke.lead d = d := by
      cases stroke with
      | moveTo => cases hstroke
      | insertText | insertLineBreak | indentLine | unsubscribe => rfl
    rw [lead, hstays, ih hrest]
  | atomic body rest ihbody ih =>
    obtain ⟨hbody, hrest⟩ := Bool.or_eq_false_iff.mp h
    rw [lead, ihbody hbody, ih hrest, ite_self]
  | attempt body rest ihbody ih =>
    obtain ⟨hbody, hrest⟩ := Bool.or_eq_false_iff.mp h
    rw [lead, ihbody hbody, ih hrest]

theorem Turn.lead_alike {turn : Turn} {free : Bool}
    (h : free = false → turn.any Stroke.edits = false) (d : Document) :
    d.Alike free (turn.lead d) :=
  ⟨turn.lines_lead d, fun hfree => congrArg Document.cursor (turn.lead_of_still (h hfree) d)⟩

namespace Editor

/-- The editor with the subscriptions of these names ended. -/
def without (s : Editor) (names : List Text) : Editor :=
  { s with listeners := s.listeners.filter fun l =>
      names.all fun name => s.subscription? name ≠ some l.key }

theorem without_nil (s : Editor) : s.without [] = s :=
  congrArg (fun listeners => { s with listeners }) (List.filter_eq_self.mpr fun _ _ => rfl)

theorem without_cons (s : Editor) (name : Text) (names : List Text) :
    s.without (name :: names) = (s.unsubscribe name).without names := by
  simp only [without, unsubscribe, List.all_cons, List.filter_filter]
  congr 2
  funext l
  exact Bool.and_comm _ _

theorem without_append (s : Editor) (names more : List Text) :
    s.without (names ++ more) = (s.without names).without more := by
  induction names generalizing s with
  | nil => rw [List.nil_append, without_nil]
  | cons name names ih => rw [List.cons_append, without_cons, without_cons, ih]

/-- The editor behind a turn that has ended these subscriptions and come to this document. -/
def turned (s : Editor) (names : List Text) (d : Document) : Editor :=
  { s.without names with document := d }

theorem turned_nil (s : Editor) : s.turned [] s.document = s := by
  rw [turned, without_nil]

theorem turned_turned (s : Editor) (names more : List Text) (d e : Document) :
    (s.turned names d).turned more e = s.turned (names ++ more) e :=
  congrArg (fun s : Editor => { s with document := e }) (without_append s names more).symm

theorem mem_of_mem_without {s : Editor} {names : List Text} {l : Listener}
    (hl : l ∈ (s.without names).listeners) : l ∈ s.listeners := (List.mem_filter.mp hl).1

theorem closeGroup_of_clean {s : Editor} (h : s.dirty = false) :
    closeGroup s = .ok () { s with depth := s.depth - 1 } := by
  rw [closeGroup_eq]
  split
  · exact flush_of_clean h
  · rfl

end Editor

/-! ## Running a turn -/

open Editor

/-- The edit ends these subscriptions and comes to this document; it fails or not. -/
inductive Idles (edit : Edit Unit) (s : Editor) (names : List Text) (d : Document) :
    (fails : Bool) → Prop
  | ok : edit s = .ok () (s.turned names d) → Idles edit s names d false
  | error {e : Failure} : edit s = .error e (s.turned names d) → Idles edit s names d true

namespace Idles

variable {edit rest : Edit Unit} {s : Editor} {names more : List Text} {d e : Document}
  {fails : Bool}

theorem eq_ok (h : Idles edit s names d fails) (hfails : fails = false) :
    edit s = .ok () (s.turned names d) := by
  cases h with
  | ok hrun => exact hrun
  | error _ => cases hfails

theorem after_eq (h : Idles edit s names d fails) : edit.after s = s.turned names d := by
  rw [Edit.after]
  cases h with
  | ok hrun => rw [hrun, finalEditor]
  | error hrun => rw [hrun, finalEditor]

theorem behind (h : Idles rest (s.turned names d) more e fails)
    (hrun : edit s = .ok () (s.turned names d)) :
    Idles (edit >>= fun _ => rest) s (names ++ more) e fails := by
  cases h with
  | ok hrest =>
    apply Idles.ok
    rw [Edit.bind_ok hrun, hrest, turned_turned]
  | error hrest =>
    apply Idles.error
    rw [Edit.bind_ok hrun, hrest, turned_turned]

/-- A group that leaves the text alone has nothing to announce, and no more to take back than
the place of the cursor. -/
theorem atomic (hclean : s.dirty = false) (h : Idles edit s.openGroup names d fails) :
    Idles (atomicWith flush edit) s names (if fails then s.document else d) fails := by
  have hclose (f : Document) : closeGroup (s.openGroup.turned names f) = .ok () (s.turned names f) :=
    closeGroup_of_clean hclean
  cases h with
  | ok hrun =>
    apply Idles.ok
    change endGroup s (edit s.openGroup) = _
    rw [hrun, endGroup_ok, hclose]
    rfl
  | @error e hrun =>
    have hback : restore s (s.openGroup.turned names d) = s.openGroup.turned names s.document := rfl
    apply Idles.error (e := e)
    change endGroup s (edit s.openGroup) = _
    rw [hrun, endGroup_error, hback, hclose]
    rfl

end Idles

theorem Stroke.run_of_idle {stroke : Stroke} (hidle : stroke.writes = false) (s : Editor) :
    stroke.run flush s = .ok () (s.turned stroke.dismissed (stroke.lead s.document)) := by
  cases stroke with
  | insertLineBreak | indentLine => cases hidle
  | moveTo p =>
    change setCursor p s = .ok () (s.turned [] (s.document.moveTo p))
    rw [turned, without_nil]
    rfl
  | insertText t =>
    have hempty : t.isEmpty = true := by simpa [writes] using hidle
    change insertTextWith flush t s = .ok () (s.turned [] s.document)
    rw [turned_nil, insertTextWith, if_pos hempty]
    rfl
  | unsubscribe name =>
    rw [dismissed, turned, without_cons, without_nil]
    rfl

theorem Turn.run_of_idle {turn : Turn} (hidle : turn.any Stroke.writes = false) {s : Editor}
    (hclean : s.dirty = false) :
    Idles (turn.run flush) s turn.dismissed (turn.lead s.document) turn.fails := by
  induction turn generalizing s with
  | done =>
    apply Idles.ok
    rw [dismissed, lead, turned_nil]
    rfl
  | fail failure =>
    apply Idles.error (e := failure)
    rw [dismissed, lead, turned_nil]
    rfl
  | stroke stroke rest ih =>
    obtain ⟨hstroke, hrest⟩ := Bool.or_eq_false_iff.mp hidle
    have hmore := ih hrest (s := s.turned stroke.dismissed (stroke.lead s.document)) hclean
    exact hmore.behind (stroke.run_of_idle hstroke s)
  | atomic body rest ihbody ih =>
    obtain ⟨hbody, hrest⟩ := Bool.or_eq_false_iff.mp hidle
    have hgroup := (ihbody hbody (s := s.openGroup) hclean).atomic hclean
    have hmore := ih hrest (s := s.turned body.dismissed (body.lead s.document)) hclean
    rw [dismissed, lead, fails, run]
    cases hfails : body.fails with
    | false =>
      rw [hfails] at hgroup
      simp only [Bool.false_eq_true, if_false, Bool.false_or] at hgroup ⊢
      exact hmore.behind (hgroup.eq_ok rfl)
    | true =>
      rw [hfails] at hgroup
      simp only [if_true, List.append_nil, Bool.true_or] at hgroup ⊢
      cases hgroup with
      | error hrun => exact .error (Edit.bind_error hrun _)
  | attempt body rest ihbody ih =>
    obtain ⟨hbody, hrest⟩ := Bool.or_eq_false_iff.mp hidle
    have hcaught : Editor.attempt (body.run flush) s
        = .ok () (s.turned body.dismissed (body.lead s.document)) := by
      rw [attempt_eq, (ihbody hbody hclean).after_eq]
    have hmore := ih hrest (s := s.turned body.dismissed (body.lead s.document)) hclean
    exact hmore.behind hcaught

/-- What a listener notes when it is called. -/
def Listener.notes (version : Nat) (d : Document) (l : Listener) : List Event :=
  .called l version d.lines :: if l.reaction.habit = .outline then [.outlined l d.outline] else []

namespace Editor

/-- The editor when a listener has noted all it notes. -/
def noted (s : Editor) (l : Listener) : Editor :=
  { s.spend l.key with events := s.events ++ l.notes s.version s.document }

theorem heard_eq_noted {s : Editor} {l : Listener} (h : l.reaction.habit ≠ .outline) :
    s.heard l = s.noted l := by
  rw [noted, Listener.notes, if_neg h]
  rfl

theorem noted_outline {s : Editor} {l : Listener} (h : l.reaction.habit = .outline) :
    (s.heard l).note (.outlined l s.document.outline) = s.noted l := by
  rw [noted, Listener.notes, if_pos h]
  simp only [heard, note, spend, List.append_assoc, List.cons_append, List.nil_append]

/-- The editor behind the call of a listener that does not change the text, unless it fails. -/
def behind (s : Editor) (l : Listener) : Editor :=
  (s.noted l).turned l.reaction.dismissed (l.reaction.turn.lead s.document)

/-- With nothing pending, the call of a listener that does not change the text only adds what it
notes, ends subscriptions and moves the cursor. -/
theorem call_of_idle {s : Editor} {l : Listener} (hidle : l.reaction.writes = false)
    (hclean : s.dirty = false) :
    (l.reaction.fails = false → call flush l s = .ok () (s.behind l))
      ∧ ∃ names d, (call flush l).after s = (s.noted l).turned names d
        ∧ (d = s.document ∨ d = l.reaction.turn.lead s.document) := by
  have hturn := Reaction.any_turn hidle
  -- Behind the habit the turn is what is left to do.
  have hleft : ∀ t : Editor, t.dirty = false → l.reaction.habit.run l (s.heard l) = .ok () t →
      (l.reaction.fails = false → call flush l s
          = .ok () (t.turned l.reaction.turn.dismissed (l.reaction.turn.lead t.document)))
        ∧ (call flush l).after s
          = t.turned l.reaction.turn.dismissed (l.reaction.turn.lead t.document) := by
    intro t ht hhabit
    have hrun : call flush l s = l.reaction.turn.run flush t := Edit.bind_ok hhabit _
    have hends := Turn.run_of_idle hturn ht
    rw [Edit.after, hrun]
    refine ⟨fun hfails => ?_, hends.after_eq⟩
    exact hends.eq_ok (Bool.or_eq_false_iff.mp hfails).2
  unfold behind Reaction.dismissed
  cases hhabit : l.reaction.habit with
  | watch =>
    have hnoted := heard_eq_noted (s := s) (l := l) (by simp [hhabit])
    obtain ⟨hok, hafter⟩ := hleft (s.noted l) hclean (by rw [hhabit, ← hnoted]; rfl)
    exact ⟨hok, _, _, hafter, .inr rfl⟩
  | refuse =>
    refine ⟨fun hfails => ?_, [], s.document, ?_, .inl rfl⟩
    · simp [Reaction.fails, hhabit] at hfails
    · have hrun : l.reaction.habit.run l (s.heard l) = .error (.refused l.name) (s.heard l) := by
        rw [hhabit]
        rfl
      have hstays : (s.noted l).turned [] s.document = s.noted l := turned_nil _
      rw [hstays, ← heard_eq_noted (by simp [hhabit])]
      exact Edit.after_bind_error hrun _
  | dismiss target =>
    have hnoted := heard_eq_noted (s := s) (l := l) (by simp [hhabit])
    obtain ⟨hok, hafter⟩ := hleft ((s.noted l).unsubscribe target) hclean
      (by rw [hhabit, ← hnoted]; rfl)
    rw [turned, ← without_cons] at hok hafter
    exact ⟨hok, _, _, hafter, .inr rfl⟩
  | outline =>
    obtain ⟨hok, hafter⟩ := hleft (s.noted l) hclean (by rw [hhabit, ← noted_outline hhabit]; rfl)
    exact ⟨hok, _, _, hafter, .inr rfl⟩

end Editor

end JadeEditor
