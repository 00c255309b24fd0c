import JadeEditor.Proofs.Editor.Pending
import JadeEditor.Proofs.Newline.Split

/-!
# The closing brace that is typed

The command for a closing brace puts it in at the cursor and, if that makes it the first unit
of the line that is not white space, gives the line the level that the rule for indentation
asks for. The brace is no margin, so a new margin leaves the cursor right behind it. The rule
reads a document that already has the brace; where it fails, the group takes the brace back.
-/

namespace JadeEditor

set_option autoImplicit false

namespace Line

/-! ## A unit behind the margin -/

section Behind

variable {c : CodeUnit} (hc : ¬ c.isBlank = true) (front back : Text)
include hc

theorem margin_append_cons : margin (front ++ c :: back) = margin front := by
  rw [margin, List.takeWhile_append, List.takeWhile_cons_of_neg hc, List.append_nil]
  split
  · rename_i hlength
    exact ((List.takeWhile_prefix _).eq_of_length hlength).symm
  · rfl

theorem indentTo_append_cons (n : Nat) :
    indentTo n (front ++ c :: back) = indentTo n front ++ c :: back := by
  have hbody : body (front ++ c :: back) = body front ++ c :: back := by
    apply (List.append_right_inj (margin front)).mp
    rw [← List.append_assoc, margin_append_body]
    conv_lhs => rw [← margin_append_cons hc front back, margin_append_body]
  rw [indentTo, hbody, indentTo, List.append_assoc]

end Behind

end Line

namespace Document

/-- The document with `front` and a closing brace in place of what stands before the cursor
on its line. -/
def withBrace (d : Document) (front : Text) : Document :=
  cut (d.lines.take d.cursor.line) (front ++ [CodeUnit.closeBrace]) d.textAfterCursor
    (d.lines.drop (d.cursor.line + 1))

/-- The document that the command for a closing brace leaves, if it does not fail. -/
def typeBrace (rule : Indenter Failure) (d : Document) : Except Failure Document :=
  let typed := d.withBrace d.textBeforeCursor
  if Line.closesBlock typed.currentLine then
    (rule.levelAt typed d.cursor.line).map fun level : Int => typed.indentLine (level : Rat)
  else .ok typed

variable (d : Document) (front : Text)

theorem currentLine_withBrace :
    (d.withBrace front).currentLine = front ++ CodeUnit.closeBrace :: d.textAfterCursor := by
  rw [withBrace, currentLine_cut, List.append_assoc, List.singleton_append]

theorem textAfterCursor_withBrace : (d.withBrace front).textAfterCursor = d.textAfterCursor :=
  textAfterCursor_cut _ _ _ _

/-- The brace is no margin, so the cursor stays right behind it. -/
theorem indentLine_withBrace (level : Int) :
    (d.withBrace front).indentLine level = d.withBrace (Line.indentTo level.toNat front) := by
  have hbrace : ¬ CodeUnit.closeBrace.isBlank = true := by decide
  have hcut := congrArg List.length (Line.margin_append_body front)
  rw [List.length_append] at hcut
  have hbehind : ¬ (d.withBrace front).cursor.column ≤ (Line.margin front).length := by
    simp only [withBrace, cut, List.length_append, List.length_singleton]
    omega
  simp only [indentLine, currentLine_withBrace, Line.margin_append_cons hbrace, if_neg hbehind,
    margin_intCast, Line.indentTo_append_cons hbrace]
  simp only [withBrace, cut, Line.indentTo, List.length_append, Text.length_spaces,
    List.length_singleton, List.set_append_right _ _ (Nat.le_refl _), Nat.sub_self,
    List.set_cons_zero, List.append_assoc, List.singleton_append, mk.injEq, Cursor.mk.injEq,
    true_and]
  omega

section Place

variable {d} (h : d.WellFormed)
include h

theorem lines_withBrace : (d.withBrace front).lines
    = d.lines.set d.cursor.line (front ++ CodeUnit.closeBrace :: d.textAfterCursor) := by
  rw [withBrace, cut, List.set_eq_take_append_cons_drop, if_pos h.1, List.append_assoc,
    List.singleton_append]

theorem cursor_withBrace :
    (d.withBrace front).cursor = ⟨d.cursor.line, front.length + 1⟩ := by
  rw [withBrace, cut, h.length_take, List.length_append, List.length_singleton]

theorem insert_closeBrace :
    d.insert [CodeUnit.closeBrace] = d.withBrace d.textBeforeCursor := by
  obtain ⟨above, front, back, below, rfl⟩ := h.exists_cut
  have hpiece := insertPiece_cut above front back below [CodeUnit.closeBrace]
  rw [withBrace, textBeforeCursor_cut, textAfterCursor_cut]
  refine hpiece.trans ?_
  simp [cut]

theorem length_textBeforeCursor : d.textBeforeCursor.length = d.cursor.column := by
  rw [textBeforeCursor, List.length_take]
  exact Nat.min_eq_left h.2

theorem withBrace_textBeforeCursor : d.withBrace d.textBeforeCursor
    = ⟨d.lines.set d.cursor.line
        (d.textBeforeCursor ++ CodeUnit.closeBrace :: d.textAfterCursor),
      ⟨d.cursor.line, d.cursor.column + 1⟩⟩ := by
  rw [← lines_withBrace _ h, ← length_textBeforeCursor h, ← cursor_withBrace _ h]

end Place

section Rule

variable {d} {rule : Indenter Failure}

theorem typeBrace_of_not_closes
    (h : Line.closesBlock (d.textBeforeCursor ++ CodeUnit.closeBrace :: d.textAfterCursor) = false) :
    d.typeBrace rule = .ok (d.withBrace d.textBeforeCursor) := by
  rw [typeBrace, currentLine_withBrace]
  exact if_neg (Bool.eq_false_iff.mp h)

theorem typeBrace_of_closes
    (h : Line.closesBlock (d.textBeforeCursor ++ CodeUnit.closeBrace :: d.textAfterCursor) = true) :
    d.typeBrace rule = (rule.levelAt (d.withBrace d.textBeforeCursor) d.cursor.line).map
      fun level => d.withBrace (Line.indentTo level.toNat d.textBeforeCursor) := by
  rw [typeBrace, currentLine_withBrace]
  refine (if_pos h).trans ?_
  simp only [indentLine_withBrace]

end Rule

end Document

namespace Editor

variable {s : Editor}

/-- A group that fails with nothing but a change of the document has not happened. -/
theorem endGroup_pending_error {α : Type} (hs : s.Sound) (failure : Failure) (d : Document) :
    endGroup s (.error failure (s.openGroup.pending d) : EStateM.Result Failure Editor α)
      = .error failure s := by
  have hclose : closeGroup s.openGroup = .ok () s := by
    by_cases hdepth : s.depth = 0
    · exact (if_pos hdepth).trans (flush_of_clean (hs.settled hdepth))
    · exact if_neg hdepth
  have hrestored : restore s (s.openGroup.pending d) = s.openGroup := rfl
  rw [endGroup_error, hrestored, hclose]

/-- The command for a closing brace is a single change of the document, or it fails and
leaves the editor as it is. -/
theorem closeBrace_eq_mutate (hs : s.Sound) (rule : Indenter Failure) :
    closeBrace rule s = match s.document.typeBrace rule with
      | .ok e => mutate (fun _ => e) s
      | .error failure => .error failure s := by
  have hopen : s.openGroup.depth ≠ 0 := Nat.succ_ne_zero _
  have hcursor : s.document.WellFormed := hs.wellFormed.document
  let typed := s.document.withBrace s.document.textBeforeCursor
  let inner := s.openGroup.pending typed
  have htype : insertText [CodeUnit.closeBrace] s.openGroup = .ok () inner := by
    have hinsert := mutate_pending hopen (·.insert [CodeUnit.closeBrace])
    rw [show s.openGroup.document = s.document from rfl, Document.insert_closeBrace hcursor]
      at hinsert
    exact hinsert
  have hget : (get : Edit Editor) inner = .ok inner inner := rfl
  have hline : inner.document.cursor.line = s.document.cursor.line := by
    change typed.cursor.line = _
    rw [Document.cursor_withBrace _ hcursor]
  have hend : ∀ d : Document, endGroup s (.ok () (s.openGroup.pending d))
      = mutate (fun _ => d) s := by
    intro d
    rw [endGroup_pending, bind_pure_unit]
  rw [closeBrace, atomic_eq, Edit.bind_ok htype, Edit.bind_ok hget, Document.typeBrace]
  by_cases hcloses : Line.closesBlock typed.currentLine = true
  · have hbranch : Line.closesBlock inner.document.currentLine = true := hcloses
    have hasked : rule.levelAt inner.document inner.document.cursor.line
        = rule.levelAt typed s.document.cursor.line := by
      rw [hline]
      rfl
    rw [if_pos hbranch, if_pos hcloses]
    cases hrule : rule.levelAt typed s.document.cursor.line with
    | ok level =>
      have hlevel : levelAt rule inner.document.cursor.line inner = .ok level inner := by
        rw [levelAt_run, hasked, hrule]
      rw [Edit.bind_ok hlevel, indentLine_pending hopen]
      exact hend _
    | error failure =>
      -- The brace is pending when the rule fails, so the group has one change to take back.
      have hlevel : levelAt rule inner.document.cursor.line inner = .error failure inner := by
        rw [levelAt_run, hasked, hrule]
      rw [Edit.bind_error hlevel]
      exact endGroup_pending_error hs failure _
  · have hbranch : ¬ Line.closesBlock inner.document.currentLine = true := hcloses
    rw [if_neg hbranch, if_neg hcloses]
    exact hend _

/-- In one announced change the line of the cursor has become `l`. The cursor stands between a
closing brace and what stood behind it before. -/
structure BraceTyped (s : Editor) (l : Text) (t : Editor) : Prop where
  lines : t.document.lines = s.document.lines.set s.document.cursor.line l
  cursor : ∃ front, l = front ++ CodeUnit.closeBrace :: s.document.textAfterCursor
    ∧ t.document.cursor = ⟨s.document.cursor.line, front.length + 1⟩
  behind : t.document.textAfterCursor = s.document.textAfterCursor
  version : t.version = s.version + 1

theorem mutate_types_brace (hs : s.Sound) (hdepth : s.depth = 0)
    (hharmless : Listening Reaction.harmless s) (front : Text) :
    ∃ t, mutate (fun _ => s.document.withBrace front) s = .ok () t
      ∧ BraceTyped s (front ++ CodeUnit.closeBrace :: s.document.textAfterCursor) t := by
  have hcursor := hs.wellFormed.document
  obtain ⟨t, hrun⟩ := mutate_succeeds agreeable_harmless hharmless.facing
    fun _ => s.document.withBrace front
  have hannounced := mutate_announced agreeable_harmless.toOnlooking hdepth hharmless
    fun _ => s.document.withBrace front
  rw [Edit.after, hrun, finalEditor_ok] at hannounced
  have hdocument : t.document = s.document.withBrace front := hannounced.document.eq
  refine ⟨t, hrun, ?_, ⟨front, rfl, ?_⟩, ?_, hannounced.version⟩
  · rw [hdocument, Document.lines_withBrace _ hcursor]
  · rw [hdocument, Document.cursor_withBrace _ hcursor]
  · rw [hdocument, Document.textAfterCursor_withBrace]

end Editor

/-- Typing a closing brace among harmless listeners. If the brace is not the first unit of its
line that is not white space, the line has the brace in it and whatever rule there is does not
matter. Otherwise the rule is asked about the document that has the brace: the line gets the
level it gives, or nothing at all happens if it fails. -/
theorem closeBrace_indents_or_leaves_no_trace {s : Editor} (hs : s.Reachable)
    (hdepth : s.depth = 0) (hharmless : s.Listening Reaction.harmless)
    (rule : Indenter Failure) :
    let d := s.document
    let line := d.cursor.line
    let typed := d.textBeforeCursor ++ CodeUnit.closeBrace :: d.textAfterCursor
    let asked : Document := ⟨d.lines.set line typed, ⟨line, d.cursor.column + 1⟩⟩
    (Line.closesBlock typed = false →
      (∀ other, Editor.closeBrace other s = Editor.closeBrace rule s)
        ∧ ∃ t, Editor.closeBrace rule s = .ok () t ∧ s.BraceTyped typed t)
    ∧ (Line.closesBlock typed = true →
      (∀ level, rule.levelAt asked line = .ok level → ∃ t, Editor.closeBrace rule s = .ok () t
        ∧ s.BraceTyped (Line.indentTo (max 0 level).toNat typed) t)
      ∧ ∀ failure, rule.levelAt asked line = .error failure →
        Editor.closeBrace rule s = .error failure s) := by
  intro d line typed asked
  have hsound := hs.sound
  have hasked : d.withBrace d.textBeforeCursor = asked :=
    Document.withBrace_textBeforeCursor hsound.wellFormed.document
  constructor
  · intro hcloses
    have hplain : ∀ other, Editor.closeBrace other s
        = Editor.mutate (fun _ => d.withBrace d.textBeforeCursor) s := by
      intro other
      rw [Editor.closeBrace_eq_mutate hsound, Document.typeBrace_of_not_closes hcloses]
    refine ⟨fun other => (hplain other).trans (hplain rule).symm, ?_⟩
    rw [hplain rule]
    exact Editor.mutate_types_brace hsound hdepth hharmless _
  · intro hcloses
    have hruns := Editor.closeBrace_eq_mutate hsound rule
    rw [Document.typeBrace_of_closes hcloses, hasked] at hruns
    constructor
    · intro level hlevel
      have hfloor : (max 0 level).toNat = level.toNat := by omega
      have hbrace : ¬ CodeUnit.closeBrace.isBlank = true := by decide
      rw [show rule.levelAt asked s.document.cursor.line = .ok level from hlevel] at hruns
      rw [hruns, hfloor, Line.indentTo_append_cons hbrace]
      exact Editor.mutate_types_brace hsound hdepth hharmless _
    · intro failure hfailure
      rw [show rule.levelAt asked s.document.cursor.line = .error failure from hfailure] at hruns
      exact hruns

/-- A brace typed inside a margin of a space and a tab, in front of another brace: three spaces
take the place of the space before it, or nothing happens at all. Behind the brace that opens
the block no rule is asked. -/
theorem brace_typed_inside_margin :
    let lines := [utf16 "if x \x7b y", utf16 " \t\x7d z"]
    let session : Session := ⟨(Editor.ofDocument (.ofLines lines)).subscribe [] .watch,
      .lookback 4, 0, 0⟩
    let place (p : Position) := ((Action.perform (.setCursor p)).run session).2.editor
    (∃ t, Editor.closeBrace (.fixed 4 3) (place ⟨1, 1⟩) = .ok () t
      ∧ t.document.lines = [utf16 "if x \x7b y", utf16 "   \x7d\t\x7d z"]
      ∧ t.document.cursor = ⟨1, 4⟩ ∧ t.version = 1)
    ∧ Editor.closeBrace (.failing 4 (.raised (utf16 "no"))) (place ⟨1, 1⟩)
      = .error (.raised (utf16 "no")) (place ⟨1, 1⟩)
    ∧ ∃ t, Editor.closeBrace (.failing 4 (.raised (utf16 "no"))) (place ⟨0, 6⟩) = .ok () t
      ∧ t.document.lines = [utf16 "if x \x7b\x7d y", utf16 " \t\x7d z"] := by
  intro lines session place
  have hs : ∀ p, (place p).Reachable := fun p => .act _ (.subscribe (.start lines) [] .watch)
  have hharmless : ∀ p, (place p).Listening Reaction.harmless :=
    fun _ => (Editor.listening_ofDocument _ _).subscribe _ rfl
  have hbody := fun p rule =>
    closeBrace_indents_or_leaves_no_trace (hs p) rfl (hharmless p) rule
  obtain ⟨-, hfirst⟩ := hbody ⟨1, 1⟩ (.fixed 4 3)
  obtain ⟨-, hfails⟩ := hbody ⟨1, 1⟩ (.failing 4 (.raised (utf16 "no")))
  obtain ⟨hbehind, -⟩ := hbody ⟨0, 6⟩ (.failing 4 (.raised (utf16 "no")))
  refine ⟨?_, ?_, ?_⟩
  · obtain ⟨t, hrun, htyped⟩ := (hfirst (by decide)).1 3 rfl
    obtain ⟨front, hline, hcursor⟩ := htyped.cursor
    obtain rfl : utf16 "   " = front := (List.append_left_inj (utf16 "\x7d\t\x7d z")).mp hline
    exact ⟨t, hrun, htyped.lines, hcursor, htyped.version⟩
  · exact (hfails (by decide)).2 _ rfl
  · obtain ⟨-, t, hrun, htyped⟩ := hbehind (by decide)
    exact ⟨t, hrun, htyped.lines⟩

end JadeEditor
