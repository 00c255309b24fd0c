import JadeEditor.Buffer.Document
import JadeEditor.Proofs.Text.Lines

/-!
# Line breaks of either kind

A text is read as units and line breaks, each break with an ending of its own. Cutting
the text forgets the endings and joining the lines gives all breaks the same one, so
the text comes back just when it has no break of the other kind. The ending that is
detected is `crlf` as soon as it occurs, hence only a text with both kinds is lost.
-/

namespace JadeEditor

set_option autoImplicit false

open CodeUnit

/-- The text has a line feed behind a carriage return, or one that stands alone. -/
def LineEnding.Occurs : LineEnding → Text → Prop
  | .crlf, t => [carriageReturn, lineFeed] <:+: t
  | .lf, t => ∃ front back, t = front ++ lineFeed :: back ∧ front.getLast? ≠ some carriageReturn

namespace Text

def MixesEndings (t : Text) : Prop := LineEnding.crlf.Occurs t ∧ LineEnding.lf.Occurs t

/-- The unit in front of the text is no part of a line break. -/
def Plain (c : CodeUnit) (t : Text) : Prop :=
  c ≠ lineFeed ∧ ¬ (c = carriageReturn ∧ t.head? = some lineFeed)

/-- Every text is empty, starts with a line break or starts with a unit that is no
part of one. -/
@[elab_as_elim]
theorem break_induction {motive : Text → Prop} (nil : motive [])
    (ending : ∀ (e : LineEnding) (t : Text), motive t → motive (e.text ++ t))
    (unit : ∀ (c : CodeUnit) (t : Text), Plain c t → motive t → motive (c :: t)) (t : Text) :
    motive t := by
  suffices h : ∀ n, ∀ t : Text, t.length ≤ n → motive t from h t.length t (Nat.le_refl _)
  intro n
  induction n with
  | zero =>
    intro t ht
    rw [List.length_eq_zero_iff.mp (Nat.le_zero.mp ht)]
    exact nil
  | succ n ih =>
    intro t ht
    cases t with
    | nil => exact nil
    | cons c t =>
      have hlength : t.length ≤ n := Nat.le_of_succ_le_succ ht
      by_cases hfeed : c = lineFeed
      · subst hfeed
        exact ending .lf t (ih t hlength)
      by_cases hreturn : c = carriageReturn ∧ t.head? = some lineFeed
      · obtain ⟨rfl, hhead⟩ := hreturn
        obtain ⟨u, rfl⟩ := List.head?_eq_some_iff.mp hhead
        exact ending .crlf u (ih u (Nat.le_of_succ_le hlength))
      · exact unit c t ⟨hfeed, hreturn⟩ (ih t hlength)

/-! ## Which endings occur -/

theorem lineFeed_ne_return : lineFeed ≠ carriageReturn := by decide

theorem crlf_occurs_cons (c : CodeUnit) (t : Text) :
    LineEnding.crlf.Occurs (c :: t)
      ↔ (c = carriageReturn ∧ t.head? = some lineFeed) ∨ LineEnding.crlf.Occurs t := by
  have hstart : [carriageReturn, lineFeed] <+: c :: t
      ↔ c = carriageReturn ∧ t.head? = some lineFeed := by
    cases t with
    | nil => simp
    | cons d t => simp [List.cons_prefix_cons, eq_comm (b := c), eq_comm (b := d)]
  rw [LineEnding.Occurs, List.infix_cons_iff, hstart]
  rfl

theorem getLast?_cons_return {c : CodeUnit} (h : c ≠ carriageReturn) (t : Text) :
    (c :: t).getLast? = some carriageReturn ↔ t.getLast? = some carriageReturn := by
  rw [List.getLast?_cons]
  cases ht : t.getLast? with
  | none => simp [h]
  | some d => simp

/-- A line feed behind the first unit stands alone as it did, unless it is the next
unit and the first one is a carriage return. -/
theorem lf_occurs_cons {c : CodeUnit} {t : Text}
    (h : ¬ (c = carriageReturn ∧ t.head? = some lineFeed)) :
    LineEnding.lf.Occurs (c :: t) ↔ c = lineFeed ∨ LineEnding.lf.Occurs t := by
  constructor
  · rintro ⟨front, back, hcut, hlast⟩
    cases front with
    | nil => exact .inl (List.cons.inj hcut).1
    | cons d front =>
      obtain ⟨rfl, rfl⟩ := List.cons.inj hcut
      refine .inr ⟨front, back, rfl, ?_⟩
      intro hfront
      apply hlast
      rw [List.getLast?_cons, hfront]
      rfl
  · rintro (rfl | ⟨front, back, rfl, hlast⟩)
    · exact ⟨[], t, rfl, by simp⟩
    · refine ⟨c :: front, back, rfl, ?_⟩
      cases front with
      | nil =>
        intro hc
        exact h ⟨Option.some.inj hc, rfl⟩
      | cons d front => rwa [List.getLast?_cons_cons]

theorem lf_occurs_return (t : Text) :
    LineEnding.lf.Occurs (carriageReturn :: lineFeed :: t) ↔ LineEnding.lf.Occurs t := by
  have hlast (front : Text) : (carriageReturn :: lineFeed :: front).getLast? = some carriageReturn
      ↔ front.getLast? = some carriageReturn := by
    rw [List.getLast?_cons_cons, getLast?_cons_return lineFeed_ne_return]
  constructor
  · rintro ⟨front, back, hcut, hfront⟩
    match front with
    | [] => exact absurd (List.cons.inj hcut).1.symm lineFeed_ne_return
    | [c] =>
      obtain ⟨rfl, -⟩ := List.cons.inj hcut
      exact absurd rfl hfront
    | c :: d :: front =>
      obtain ⟨rfl, hmore⟩ := List.cons.inj hcut
      obtain ⟨rfl, rfl⟩ := List.cons.inj hmore
      exact ⟨front, back, rfl, fun h => hfront ((hlast front).mpr h)⟩
  · rintro ⟨front, back, rfl, hfront⟩
    exact ⟨carriageReturn :: lineFeed :: front, back, rfl, fun h => hfront ((hlast front).mp h)⟩

theorem not_occurs_nil (e : LineEnding) : ¬ e.Occurs [] := by
  cases e with
  | lf =>
    rintro ⟨front, back, hcut, -⟩
    simp at hcut
  | crlf => simp [LineEnding.Occurs]

theorem occurs_cons (e : LineEnding) {c : CodeUnit} {t : Text} (h : Plain c t) :
    e.Occurs (c :: t) ↔ e.Occurs t := by
  cases e with
  | lf => rw [lf_occurs_cons h.2, or_iff_right h.1]
  | crlf => rw [crlf_occurs_cons, or_iff_right h.2]

theorem occurs_ending_append (e other : LineEnding) (t : Text) :
    e.Occurs (other.text ++ t) ↔ e = other ∨ e.Occurs t := by
  have hfeed : ¬ (lineFeed = carriageReturn ∧ t.head? = some lineFeed) := fun h =>
    lineFeed_ne_return h.1
  cases other with
  | lf =>
    rw [LineEnding.text, List.singleton_append]
    cases e with
    | lf => simp [lf_occurs_cons hfeed]
    | crlf => simp [crlf_occurs_cons, hfeed]
  | crlf =>
    rw [LineEnding.text, List.cons_append, List.singleton_append]
    cases e with
    | lf => simp [lf_occurs_return]
    | crlf => simp [crlf_occurs_cons]

theorem hasReturn_iff_occurs (t : Text) : HasReturn t ↔ LineEnding.crlf.Occurs t := by
  induction t with
  | nil => exact iff_of_false Bool.false_ne_true (not_occurs_nil .crlf)
  | cons c t ih => rw [hasReturn_cons, crlf_occurs_cons, ih]

/-! ## Cutting and joining again -/

theorem unlines_lines_ending (e other : LineEnding) (t : Text) :
    unlines e (lines (other.text ++ t)) = e.text ++ unlines e (lines t) := by
  rw [lines_ending_append]
  exact unlines_cons_cons e [] _ _

theorem unlines_lines_cons (e : LineEnding) {c : CodeUnit} {t : Text} (h : Plain c t) :
    unlines e (lines (c :: t)) = c :: unlines e (lines t) := by
  obtain ⟨l, ls, ht⟩ := List.exists_cons_of_ne_nil (lines_ne_nil t)
  rw [lines_cons ht h.1 h.2, ht]
  cases ls with
  | nil => simp
  | cons m ls => simp [unlines_cons_cons]

theorem ending_append_inj {e other : LineEnding} {t u : Text} :
    e.text ++ t = other.text ++ u ↔ other = e ∧ t = u := by
  cases e <;> cases other <;> simp [LineEnding.text, lineFeed_ne_return, lineFeed_ne_return.symm]

/-- The text comes back if the ending it is joined with is the only one it has. -/
theorem unlines_lines_eq_iff (e : LineEnding) (t : Text) :
    unlines e (lines t) = t ↔ ∀ other : LineEnding, other.Occurs t → other = e := by
  induction t using break_induction with
  | nil => simp [not_occurs_nil]
  | ending first t ih =>
    simp only [unlines_lines_ending, ending_append_inj, ih, occurs_ending_append]
    constructor
    · rintro ⟨rfl, hmore⟩ other (rfl | h)
      · rfl
      · exact hmore other h
    · intro h
      exact ⟨h first (.inl rfl), fun other hmore => h other (.inr hmore)⟩
  | unit c t hplain ih =>
    simp only [unlines_lines_cons e hplain, List.cons.injEq, true_and, ih, occurs_cons _ hplain]

theorem unlines_detect_iff (t : Text) :
    unlines (.detect t) (lines t) = t ↔ ¬ t.MixesEndings := by
  rw [unlines_lines_eq_iff, MixesEndings, ← hasReturn_iff_occurs]
  by_cases h : HasReturn t
  · have hdetect : LineEnding.detect t = .crlf := if_pos h
    rw [hdetect]
    constructor
    · rintro honly ⟨-, hlf⟩
      cases honly .lf hlf
    · intro hnot other hother
      cases other with
      | lf => exact absurd ⟨h, hother⟩ hnot
      | crlf => rfl
  · have hdetect : LineEnding.detect t = .lf := if_neg h
    rw [hdetect]
    constructor
    · rintro - ⟨hreturn, -⟩
      exact h hreturn
    · rintro - other hother
      cases other with
      | lf => rfl
      | crlf => exact absurd ((hasReturn_iff_occurs t).mpr hother) h

theorem lines_unlines_lf_iff {ls : List Text} (hne : ls ≠ []) (h : Unbroken ls) :
    lines (unlines .lf ls) = ls ↔ Unreturned ls := by
  constructor
  · intro hback
    -- The joined text is the join of its own lines, so it has no carriage return before a break.
    have honly := (unlines_lines_eq_iff .lf (unlines .lf ls)).mp (congrArg (unlines .lf) hback)
    have hnot : ¬ HasReturn (unlines .lf ls) := by
      intro hreturn
      cases honly .crlf ((hasReturn_iff_occurs _).mp hreturn)
    have hlines := unreturned_lines hnot
    rwa [hback] at hlines
  · intro hreturn
    exact lines_unlines hne h fun _ => hreturn

end Text

/-! ## Documents -/

theorem Document.lines_ofLines {ls : List Text} (h : ls ≠ []) : (Document.ofLines ls).lines = ls := by
  rw [Document.ofLines, if_neg]
  simpa using h

/-- A text becomes a document and the document a text again without a change just when the
text does not mix line endings. The lines of a document, if no line feed is among them, come
back from its text with carriage returns and line feeds always, and from its text with
line feeds alone just when no line but the last ends in a carriage return. -/
theorem cutting_and_joining_are_inverse :
    (∀ t : Text, (Document.ofText t).text (.detect t) = t ↔ ¬ t.MixesEndings)
    ∧ ∀ ls : List Text, ls ≠ [] → Text.Unbroken ls →
      (Document.ofText ((Document.ofLines ls).text .crlf)).lines = ls
      ∧ ((Document.ofText ((Document.ofLines ls).text .lf)).lines = ls ↔ Text.Unreturned ls) := by
  refine ⟨Text.unlines_detect_iff, ?_⟩
  intro ls hne hunbroken
  simp only [Document.text, Document.lines_ofLines hne]
  constructor
  · exact Text.lines_unlines hne hunbroken fun h => nomatch h
  · exact Text.lines_unlines_lf_iff hne hunbroken

theorem returned_line_comes_back_from_crlf :
    let ls : List Text := [[ofChar 'a', carriageReturn], [], [carriageReturn]]
    ls ≠ [] ∧ Text.Unbroken ls
      ∧ (Document.ofText ((Document.ofLines ls).text .crlf)).lines = ls
      ∧ (Document.ofText ((Document.ofLines ls).text .lf)).lines ≠ ls := by
  intro ls
  have hne : ls ≠ [] := by decide
  have hunbroken : Text.Unbroken ls := by unfold Text.Unbroken; decide
  have hreturned : ¬ Text.Unreturned ls := by unfold Text.Unreturned; decide
  have hback := cutting_and_joining_are_inverse.2 ls hne hunbroken
  exact ⟨hne, hunbroken, hback.1, fun h => hreturned (hback.2.mp h)⟩

end JadeEditor
