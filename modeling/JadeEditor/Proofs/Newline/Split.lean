import JadeEditor.Proofs.Buffer.Caret
import JadeEditor.Proofs.Indent.Reindent

/-!
# What a new line leaves behind

The command for a new line is a group of edits, each of which moves the cursor and some of
which replace a margin. With the document cut at its cursor every one of them is a
cut again, so their sum can be given at once: the line is broken at the cursor, and
what stood behind the cursor goes to a line of its own with a new margin. Between
the two parts of a block there is room for its body, and a closing brace starts the last line.
-/

namespace JadeEditor

set_option autoImplicit false

open CodeUnit

namespace Document

/-! ## Documents cut at their cursor -/

section Cut

variable (above : List Text) (front back : Text) (below : List Text)

/-- A cursor in the margin goes to the end of the new one. -/
theorem indentLine_cut (hfront : ∀ c ∈ front, c.isBlank) (level : Int) :
    (cut above front back below).indentLine level
      = cut above (Text.spaces level.toNat) (Line.body back) below := by
  have hmargin : (cut above front back below).cursor.column
      ≤ (Line.margin (front ++ back)).length := by
    rw [Line.margin, List.takeWhile_append_of_pos hfront, List.length_append]
    exact Nat.le_add_right _ _
  have hbody : Line.body (front ++ back) = Line.body back := List.dropWhile_append_of_pos hfront
  simp only [indentLine, currentLine_cut, if_pos hmargin, margin_intCast, Line.indentTo, hbody]
  simp [cut]

theorem moveTo_cut {d : Document} (h : d.lines = above ++ (front ++ back) :: below) :
    d.moveTo ⟨above.length, front.length⟩ = cut above front back below := by
  have hline : clamp (above.length : Int) (d.lines.length - 1) = above.length := by
    simp only [clamp, h, List.length_append, List.length_cons, Int.toNat_natCast]
    omega
  have hcolumn : clamp (front.length : Int) (d.lines.getD above.length []).length
      = front.length := by
    simp [clamp, h]
  simp only [moveTo, hline, hcolumn]
  rw [h, cut]

end Cut

/-! ## The document behind a new line -/

variable (d : Document)

/-- The line is broken at the cursor, and the second part indented. -/
def breakAt (level : Int) : Document :=
  cut (d.lines.take d.cursor.line ++ [d.textBeforeCursor]) (Text.spaces level.toNat)
    (Line.body d.textAfterCursor) (d.lines.drop (d.cursor.line + 1))

/-- The line is broken at the cursor, with a line for the body of a block in between; the
second part stands behind the closing brace of the block. -/
def openBlock (outer inner : Int) : Document :=
  cut (d.lines.take d.cursor.line ++ [d.textBeforeCursor]) (Text.spaces inner.toNat) []
    ((Text.spaces outer.toNat ++ closeBrace :: Line.body d.textAfterCursor)
      :: d.lines.drop (d.cursor.line + 1))

theorem lines_breakAt (level : Int) :
    (d.breakAt level).lines = d.lines.take d.cursor.line
      ++ [d.textBeforeCursor, Line.indentTo level.toNat d.textAfterCursor]
      ++ d.lines.drop (d.cursor.line + 1) := by
  simp [breakAt, cut, Line.indentTo]

theorem lines_openBlock (outer inner : Int) :
    (d.openBlock outer inner).lines = d.lines.take d.cursor.line
      ++ [d.textBeforeCursor, Text.spaces inner.toNat,
        Text.spaces outer.toNat ++ closeBrace :: Line.body d.textAfterCursor]
      ++ d.lines.drop (d.cursor.line + 1) := by
  simp [openBlock, cut]

/-- The result of the command for a new line, and the document it leaves. -/
def newline (unit : Int) : Newline × Document :=
  let indent : Int := Line.indentation d.currentLine
  if Line.opensBlock d.textBeforeCursor then
    (⟨.bracePair, indent + unit⟩, d.openBlock indent (indent + unit))
  else
    let level := if Line.opensBlock d.currentLine then indent + unit else indent
    (⟨.plain, level⟩, d.breakAt level)

theorem newline_of_opensBlock {d : Document} (h : Line.opensBlock d.textBeforeCursor = true)
    (unit : Int) :
    let indent : Int := Line.indentation d.currentLine
    d.newline unit = (⟨.bracePair, indent + unit⟩, d.openBlock indent (indent + unit)) := if_pos h

theorem newline_of_no_block {d : Document} (h : Line.opensBlock d.textBeforeCursor = false)
    (unit : Int) :
    let indent : Int := Line.indentation d.currentLine
    let level := if Line.opensBlock d.currentLine then indent + unit else indent
    d.newline unit = (⟨.plain, level⟩, d.breakAt level) := if_neg (Bool.eq_false_iff.mp h)

section Steps

variable {d : Document} (h : d.WellFormed)
include h

theorem breakLine_eq_cut :
    d.breakLine = cut (d.lines.take d.cursor.line ++ [d.textBeforeCursor]) [] d.textAfterCursor
      (d.lines.drop (d.cursor.line + 1)) := by
  simp [breakLine, cut, h.length_take]

theorem indentLine_breakLine (level : Int) : d.breakLine.indentLine level = d.breakAt level := by
  rw [breakLine_eq_cut h, indentLine_cut _ _ _ _ (List.forall_mem_nil _)]
  rfl

end Steps

/-- From the line of the body the cursor goes down to the last line and comes back. -/
theorem moveTo_insert_breakAt (outer inner : Int) :
    (((d.breakAt inner).breakLine.indentLine outer).insert [closeBrace]).moveTo
      (d.breakAt inner).cursor.position = d.openBlock outer inner := by
  have hlast : (d.breakAt inner).breakLine.indentLine outer
      = cut (d.lines.take d.cursor.line ++ [d.textBeforeCursor] ++ [Text.spaces inner.toNat])
        (Text.spaces outer.toNat) (Line.body d.textAfterCursor)
        (d.lines.drop (d.cursor.line + 1)) := by
    rw [breakAt, breakLine_cut, indentLine_cut _ _ _ _ (List.forall_mem_nil _), Line.body_body]
  have hbrace : ((d.breakAt inner).breakLine.indentLine outer).insert [closeBrace]
      = ((d.breakAt inner).breakLine.indentLine outer).insertPiece [closeBrace] := rfl
  rw [hbrace, hlast, insertPiece_cut]
  apply moveTo_cut
  simp [cut]

end Document

/-! ## The edits -/

namespace Editor

variable {s : Editor}

section Group

variable (hopen : s.depth ≠ 0)
include hopen

theorem mutate_pending (change : Document → Document) :
    mutate change s = .ok () (s.pending (change s.document)) := if_neg hopen

theorem indentLine_pending (d : Document) (level : Rat) :
    indentLine level (s.pending d) = .ok () (s.pending (d.indentLine level)) :=
  indentLine_in_group (s := s.pending d) hopen level

theorem insertText_pending (d : Document) {t : Text} (ht : t ≠ []) :
    insertText t (s.pending d) = .ok () (s.pending (d.insert t)) := by
  have hsome : ¬ t.isEmpty = true := by simpa using ht
  rw [insertText_eq, if_neg hsome]
  exact mutate_pending (s := s.pending d) hopen _

variable (hcursor : s.document.WellFormed)
include hcursor

theorem splitPlain_run (level : Int) :
    splitPlain level s = .ok ⟨.plain, level⟩ (s.pending (s.document.breakAt level)) := by
  have hbreak : insertLineBreak s = .ok () (s.pending s.document.breakLine) :=
    mutate_pending hopen _
  have hindent := indentLine_pending hopen s.document.breakLine level
  rw [Document.indentLine_breakLine hcursor] at hindent
  rw [splitPlain, Edit.bind_ok hbreak, Edit.bind_ok hindent]
  rfl

theorem splitBracePair_run (indent unit : Int) :
    splitBracePair indent unit s = .ok ⟨.bracePair, indent + unit⟩
      (s.pending (s.document.openBlock indent (indent + unit))) := by
  let room := s.document.breakAt (indent + unit)
  have hbreak : insertLineBreak s = .ok () (s.pending s.document.breakLine) :=
    mutate_pending hopen _
  have hroom := indentLine_pending hopen s.document.breakLine (indent + unit : Int)
  rw [Document.indentLine_breakLine hcursor] at hroom
  have hbelow : insertLineBreak (s.pending room) = .ok () (s.pending room.breakLine) :=
    mutate_pending (s := s.pending room) hopen _
  have hlast := indentLine_pending hopen room.breakLine (indent : Rat)
  have hbrace : insertText [CodeUnit.closeBrace] (s.pending (room.breakLine.indentLine indent))
      = .ok () (s.pending ((room.breakLine.indentLine indent).insert [CodeUnit.closeBrace])) :=
    insertText_pending hopen _ (List.cons_ne_nil _ _)
  have hget : (get : Edit Editor) (s.pending room) = .ok (s.pending room) (s.pending room) := rfl
  rw [splitBracePair, Edit.bind_ok hbreak, Edit.bind_ok hroom, Edit.bind_ok hget,
    Edit.bind_ok hbelow, Edit.bind_ok hlast, Edit.bind_ok hbrace,
    ← Document.moveTo_insert_breakAt]
  rfl

end Group

/-- A group that changed the document is a single change of it. -/
theorem endGroup_pending {α : Type} (a : α) (d : Document) :
    endGroup s (.ok a (s.openGroup.pending d)) = (mutate (fun _ => d) >>= fun _ => pure a) s := by
  have hclose : closeGroup (s.openGroup.pending d) = mutate (fun _ => d) s := rfl
  simp only [endGroup_ok, hclose, bind, EStateM.bind]
  cases mutate (fun _ => d) s <;> rfl

/-- The command for a new line is a single change of the document. -/
theorem newline_eq_mutate (hcursor : s.document.WellFormed) (unit : Int) :
    newline unit s = (mutate (fun _ => (s.document.newline unit).2)
      >>= fun _ => pure (s.document.newline unit).1) s := by
  have hopen : s.openGroup.depth ≠ 0 := Nat.succ_ne_zero _
  rw [← endGroup_pending]
  change (if Line.opensBlock s.document.textBeforeCursor then
    atomic (splitBracePair (Line.indentation s.document.currentLine) unit)
    else atomic (splitPlain (if Line.opensBlock s.document.currentLine
      then Line.indentation s.document.currentLine + unit
      else Line.indentation s.document.currentLine))) s = _
  unfold Document.newline
  split
  · rw [atomic_eq, splitBracePair_run hopen hcursor]
    rfl
  · rw [atomic_eq, splitPlain_run hopen hcursor]
    rfl

section Outcome

variable {free : Bool} {Q : Reaction → Bool} (hcursor : s.document.WellFormed) (unit : Int)
include hcursor

theorem newline_after :
    (newline unit).after s = (mutate fun _ => (s.document.newline unit).2).after s := by
  rw [Edit.after, newline_eq_mutate hcursor]
  exact Edit.after_bind_pure _ _ s

theorem newline_facing (hQ : Onlooking free Q) (hs : Facing Q s) :
    (s.document.newline unit).2.Alike free ((newline unit).after s).document := by
  rw [newline_after hcursor]
  exact (mutate_facing hQ hs fun _ => (s.document.newline unit).2).1

theorem newline_succeeds (hQ : Agreeable free Q) (hs : Facing Q s) :
    ∃ t, newline unit s = .ok (s.document.newline unit).1 t := by
  obtain ⟨t, hmutate⟩ := mutate_succeeds hQ hs fun _ => (s.document.newline unit).2
  exact ⟨t, by rw [newline_eq_mutate hcursor, Edit.bind_ok hmutate]; rfl⟩

/-- Outside groups the new line is announced once. -/
theorem newline_announced (hQ : Onlooking free Q) (hdepth : s.depth = 0) (hs : Listening Q s) :
    Announced free (s.pending (s.document.newline unit).2) ((newline unit).after s) := by
  rw [newline_after hcursor]
  exact mutate_announced hQ hdepth hs fun _ => (s.document.newline unit).2

end Outcome

end Editor

end JadeEditor
