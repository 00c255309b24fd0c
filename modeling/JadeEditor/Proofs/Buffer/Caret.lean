import JadeEditor.Proofs.Editor.Onlooker
import JadeEditor.Proofs.Text.Lines

/-!
# A document as one text with a caret

Joined with line feeds, the lines of a document are one text, and the cursor is a place
in it: the caret. Inserting a text is then nothing but appending it to what stands before
the caret, however many line feeds it has. This is seen one unit at a time: a line feed
breaks the line and any other unit goes into it, and either way the text before the caret
grows by that unit.
-/

namespace JadeEditor

set_option autoImplicit false

open CodeUnit

structure Caret where
  before : Text
  behind : Text

namespace Caret

def text (c : Caret) : Text := c.before ++ c.behind

def insert (c : Caret) (t : Text) : Caret := ⟨c.before ++ t, c.behind⟩

end Caret

/-- Lines joined with line feeds, seen from one of them. -/
theorem Text.unlines_lf (above : List Text) (l : Text) (below : List Text) :
    Text.unlines .lf (above ++ l :: below)
      = above.flatMap (· ++ [lineFeed]) ++ (l ++ below.flatMap (lineFeed :: ·)) := by
  induction above with
  | nil =>
    induction below generalizing l with
    | nil => simp
    | cons m below ih =>
      have hmore := ih m
      rw [List.nil_append] at hmore ⊢
      rw [Text.unlines_cons_cons, hmore]
      rfl
  | cons m above ih =>
    cases above with
    | nil =>
      rw [List.singleton_append, Text.unlines_cons_cons, ← List.nil_append (l :: below), ih]
      simp [LineEnding.text]
    | cons n above =>
      rw [List.cons_append, List.cons_append, Text.unlines_cons_cons, ← List.cons_append, ih]
      simp [LineEnding.text]

theorem Text.extent_eq_length (ls : List Text) :
    Text.extent ls = (ls.flatMap (· ++ [lineFeed])).length := by
  induction ls with
  | nil => rfl
  | cons l ls ih =>
    rw [Text.extent, List.flatMap_cons, List.length_append, List.length_append, ih]
    rfl

namespace Document

/-! ## The document cut at its cursor -/

/-- The document with the given lines above and below the cursor, and the given text
before and behind it on its line. -/
def cut (above : List Text) (front back : Text) (below : List Text) : Document :=
  ⟨above ++ (front ++ back) :: below, ⟨above.length, front.length⟩⟩

theorem WellFormed.exists_cut {d : Document} (h : d.WellFormed) :
    ∃ above front back below, d = cut above front back below := by
  obtain ⟨lines, ⟨line, column⟩⟩ := d
  obtain ⟨hline, hcolumn⟩ := h
  simp only [currentLine, List.getD_eq_getElem?_getD, List.getElem?_eq_getElem hline,
    Option.getD_some] at hline hcolumn
  refine ⟨lines.take line, lines[line].take column, lines[line].drop column,
    lines.drop (line + 1), ?_⟩
  have hlines : lines.take line ++ lines[line] :: lines.drop (line + 1) = lines := by
    rw [List.getElem_cons_drop, List.take_append_drop]
  simp only [cut, List.take_append_drop, hlines, List.length_take, Nat.min_eq_left hcolumn,
    Nat.min_eq_left (Nat.le_of_lt hline)]

theorem WellFormed.length_take {d : Document} (h : d.WellFormed) :
    (d.lines.take d.cursor.line).length = d.cursor.line := by
  rw [List.length_take]
  exact Nat.min_eq_left (Nat.le_of_lt h.1)

theorem textBeforeCursor_append_textAfterCursor (d : Document) :
    d.textBeforeCursor ++ d.textAfterCursor = d.currentLine := List.take_append_drop _ _

variable (above : List Text) (front back : Text) (below : List Text)

theorem currentLine_cut : (cut above front back below).currentLine = front ++ back := by
  simp [cut, currentLine]

theorem textBeforeCursor_cut : (cut above front back below).textBeforeCursor = front := by
  rw [textBeforeCursor, currentLine_cut]
  exact List.take_left

theorem textAfterCursor_cut : (cut above front back below).textAfterCursor = back := by
  rw [textAfterCursor, currentLine_cut]
  exact List.drop_left

theorem insertPiece_cut (piece : Text) :
    (cut above front back below).insertPiece piece = cut above (front ++ piece) back below := by
  rw [insertPiece, textBeforeCursor_cut, textAfterCursor_cut]
  simp [cut]

theorem breakLine_cut :
    (cut above front back below).breakLine = cut (above ++ [front]) [] back below := by
  rw [breakLine, textBeforeCursor_cut, textAfterCursor_cut]
  simp [cut]

/-! ## One unit at a time -/

/-- What one unit of an inserted text does. -/
def insertUnit (d : Document) (c : CodeUnit) : Document :=
  if c = lineFeed then d.breakLine else d.insertPiece [c]

variable {d : Document}

theorem wellFormed_insertUnit (h : d.WellFormed) (c : CodeUnit) : (d.insertUnit c).WellFormed := by
  unfold insertUnit
  split
  · exact wellFormed_breakLine h
  · exact wellFormed_insertPiece h _

theorem insert_nil (h : d.WellFormed) : d.insert [] = d := by
  obtain ⟨above, front, back, below, rfl⟩ := h.exists_cut
  have hpiece := insertPiece_cut above front back below []
  rw [List.append_nil] at hpiece
  exact hpiece

theorem insert_cons (h : d.WellFormed) (c : CodeUnit) (t : Text) :
    d.insert (c :: t) = (d.insertUnit c).insert t := by
  obtain ⟨above, front, back, below, rfl⟩ := h.exists_cut
  by_cases hc : c = lineFeed
  · simp only [insert, Text.splitOn, if_pos hc, insertUnit, List.foldl_cons, insertPiece_cut,
      List.append_nil]
  · simp only [insert, Text.splitOn, if_neg hc, insertUnit, insertPiece_cut, List.append_assoc,
      List.singleton_append]

theorem breakLine_eq_insert (h : d.WellFormed) : d.breakLine = d.insert [lineFeed] := by
  rw [insert_cons h, insert_nil (wellFormed_insertUnit h _)]
  rfl

theorem insert_append (h : d.WellFormed) (a b : Text) :
    d.insert (a ++ b) = (d.insert a).insert b := by
  induction a generalizing d with
  | nil => rw [List.nil_append, insert_nil h]
  | cons c a ih =>
    rw [List.cons_append, insert_cons h, insert_cons h, ih (wellFormed_insertUnit h c)]

/-! ## The caret -/

/-- The document as one text. -/
def caret (d : Document) : Caret where
  before := (d.lines.take d.cursor.line).flatMap (· ++ [lineFeed]) ++ d.textBeforeCursor
  behind := d.textAfterCursor ++ (d.lines.drop (d.cursor.line + 1)).flatMap (lineFeed :: ·)

theorem caret_cut (above : List Text) (front back : Text) (below : List Text) :
    (cut above front back below).caret
      = ⟨above.flatMap (· ++ [lineFeed]) ++ front, back ++ below.flatMap (lineFeed :: ·)⟩ := by
  rw [caret, textBeforeCursor_cut, textAfterCursor_cut]
  simp [cut]

theorem text_eq_caret (h : d.WellFormed) : d.text .lf = d.caret.text := by
  obtain ⟨above, front, back, below, rfl⟩ := h.exists_cut
  rw [caret_cut, Caret.text, text, cut, Text.unlines_lf]
  simp only [List.append_assoc]

theorem offset_cursor (h : d.WellFormed) :
    d.offset d.cursor.position = d.caret.before.length := by
  obtain ⟨above, front, back, below, rfl⟩ := h.exists_cut
  rw [caret_cut]
  simp [offset, lineStart, cut, Cursor.position, Text.extent_eq_length]

theorem caret_insertUnit (h : d.WellFormed) (c : CodeUnit) :
    (d.insertUnit c).caret = d.caret.insert [c] := by
  obtain ⟨above, front, back, below, rfl⟩ := h.exists_cut
  unfold insertUnit
  split
  · rename_i hc
    rw [breakLine_cut, caret_cut, caret_cut, Caret.insert, hc]
    simp
  · rw [insertPiece_cut, caret_cut, caret_cut, Caret.insert, List.append_assoc]

/-- Inserting a text at the cursor is inserting it at the caret. -/
theorem caret_insert (h : d.WellFormed) (t : Text) : (d.insert t).caret = d.caret.insert t := by
  induction t generalizing d with
  | nil => rw [insert_nil h, Caret.insert, List.append_nil]
  | cons c t ih =>
    rw [insert_cons h, ih (wellFormed_insertUnit h c), caret_insertUnit h]
    simp [Caret.insert]

theorem text_insert (h : d.WellFormed) (t : Text) :
    (d.insert t).text .lf = (d.text .lf).take d.caret.before.length ++ t
      ++ (d.text .lf).drop d.caret.before.length := by
  rw [text_eq_caret (wellFormed_insert h t), caret_insert h, text_eq_caret h, Caret.text,
    Caret.text, Caret.insert, List.take_left, List.drop_left]

theorem offset_insert (h : d.WellFormed) (t : Text) :
    (d.insert t).offset (d.insert t).cursor.position = d.caret.before.length + t.length := by
  rw [offset_cursor (wellFormed_insert h t), caret_insert h, Caret.insert, List.length_append]
  exact Int.natCast_add _ _

theorem unbroken_cut (above : List Text) (front back : Text) (below : List Text) :
    Text.Unbroken (cut above front back below).lines
      ↔ Text.Unbroken above ∧ (lineFeed ∉ front ∧ lineFeed ∉ back) ∧ Text.Unbroken below := by
  simp only [Text.Unbroken, cut]
  rw [List.forall_mem_append, List.forall_mem_cons, List.mem_append, not_or]

theorem unbroken_insertUnit (h : d.WellFormed) (hlines : Text.Unbroken d.lines) (c : CodeUnit) :
    Text.Unbroken (d.insertUnit c).lines := by
  obtain ⟨above, front, back, below, rfl⟩ := h.exists_cut
  obtain ⟨habove, ⟨hfront, hback⟩, hbelow⟩ := (unbroken_cut _ _ _ _).mp hlines
  unfold insertUnit
  split
  · rw [breakLine_cut, unbroken_cut]
    refine ⟨?_, ⟨List.not_mem_nil, hback⟩, hbelow⟩
    intro l hl
    rcases List.mem_append.mp hl with hl | hl
    · exact habove l hl
    · rw [List.mem_singleton.mp hl]
      exact hfront
  · rename_i hc
    rw [insertPiece_cut, unbroken_cut]
    refine ⟨habove, ⟨?_, hback⟩, hbelow⟩
    intro hmem
    rcases List.mem_append.mp hmem with hmem | hmem
    · exact hfront hmem
    · exact hc (List.mem_singleton.mp hmem).symm

theorem unbroken_insert (h : d.WellFormed) (hlines : Text.Unbroken d.lines) (t : Text) :
    Text.Unbroken (d.insert t).lines := by
  induction t generalizing d with
  | nil =>
    rw [insert_nil h]
    exact hlines
  | cons c t ih =>
    rw [insert_cons h]
    exact ih (wellFormed_insertUnit h c) (unbroken_insertUnit h hlines c)

end Document

/-! ## Edits -/

namespace Editor

variable {s : Editor}

variable {free : Bool} {Q : Reaction → Bool}

theorem insertText_facing (hQ : Onlooking free Q) (hs : s.Facing Q)
    (hcursor : s.document.WellFormed) (t : Text) :
    (s.document.insert t).Alike free ((insertText t).after s).document
      ∧ ((insertText t).after s).Facing Q := by
  rw [insertText_eq]
  split
  · rename_i hempty
    rw [List.isEmpty_iff.mp hempty, Document.insert_nil hcursor]
    exact ⟨.refl free _, hs⟩
  · exact mutate_facing hQ hs (·.insert t)

theorem insertText_succeeds (hQ : Agreeable free Q) (hs : s.Facing Q) (t : Text) :
    ∃ u, insertText t s = .ok () u := by
  rw [insertText_eq]
  split
  · exact ⟨s, rfl⟩
  · exact mutate_succeeds hQ hs _

/-- The text is in before anyone is told of it. -/
theorem insertText_eq_flush (hdepth : s.depth = 0) {t : Text} (ht : t ≠ []) :
    insertText t s = flush (s.pending (s.document.insert t)) := by
  have hsome : ¬ t.isEmpty = true := by simpa using ht
  rw [insertText_eq, if_neg hsome]
  exact if_pos hdepth

theorem insertLineBreak_eq_insertText (hcursor : s.document.WellFormed) :
    insertLineBreak s = insertText [lineFeed] s := by
  change mutate Document.breakLine s = mutate (·.insert [lineFeed]) s
  simp only [mutate, mutateWith, Document.breakLine_eq_insert hcursor]

end Editor

/-- With the cursor in range, inserting a text inserts it into the joined lines at the offset
of the cursor, moves that offset behind it and keeps the cursor in range. That is what
listeners are told of, and what is there in the end unless one of them changes the text or moves
the cursor. A line break is the insertion of a line feed, and two insertions in a row are one. -/
theorem insertText_inserts_at_offset {s : Editor} (hcursor : s.document.WellFormed) :
    let d := s.document
    ∃ k : Nat, d.offset d.cursor.position = k
      ∧ (∀ t : Text,
        let e := d.insert t
        e.text .lf = (d.text .lf).take k ++ t ++ (d.text .lf).drop k
          ∧ e.offset e.cursor.position = k + t.length
          ∧ e.WellFormed
          ∧ (Text.Unbroken d.lines → Text.Unbroken e.lines)
          ∧ (s.depth = 0 → t ≠ [] →
            Editor.insertText t s = Editor.flush { s with document := e, dirty := true })
          ∧ ((s.Facing fun r => !r.writes) →
            ((Editor.insertText t).after s).document.lines = e.lines)
          ∧ ((s.Facing fun r => !r.edits) → ((Editor.insertText t).after s).document = e)
          ∧ (s.Facing Reaction.peaceful → ∃ u, Editor.insertText t s = .ok () u))
      ∧ Editor.insertLineBreak s = Editor.insertText [lineFeed] s
      ∧ ((s.Facing fun r => !r.edits) → ∀ a b : Text,
        ((Editor.insertText b).after ((Editor.insertText a).after s)).document
          = ((Editor.insertText (a ++ b)).after s).document) := by
  intro d
  refine ⟨d.caret.before.length, Document.offset_cursor hcursor, ?_,
    Editor.insertLineBreak_eq_insertText hcursor, ?_⟩
  · intro t e
    refine ⟨Document.text_insert hcursor t, Document.offset_insert hcursor t,
      Document.wellFormed_insert hcursor t, fun h => Document.unbroken_insert hcursor h t,
      fun hdepth ht => Editor.insertText_eq_flush hdepth ht, ?_, ?_,
      fun h => Editor.insertText_succeeds Editor.agreeable_peaceful h t⟩
    · exact fun hs => (Editor.insertText_facing Editor.onlooking_not_writes hs hcursor t).1.lines
    · exact fun hs => (Editor.insertText_facing Editor.onlooking_not_edits hs hcursor t).1.eq
  · intro hs a b
    obtain ⟨halike, hfacing⟩ := Editor.insertText_facing Editor.onlooking_not_edits hs hcursor a
    have hfirst := halike.eq
    have hwell : ((Editor.insertText a).after s).document.WellFormed := by
      rw [hfirst]
      exact Document.wellFormed_insert hcursor a
    rw [(Editor.insertText_facing Editor.onlooking_not_edits hfacing hwell b).1.eq, hfirst,
      (Editor.insertText_facing Editor.onlooking_not_edits hs hcursor (a ++ b)).1.eq,
      Document.insert_append hcursor]

/-- A text with a line feed, in the middle of the second line and under a listener that ends
its own subscription. -/
theorem insertText_inserts_two_lines :
    let d : Document := ⟨[utf16 "ab", utf16 "cd"], ⟨1, 1⟩⟩
    let s := (Editor.ofDocument d).subscribe (utf16 "l") (.dismiss (utf16 "l"))
    let e := ((Editor.insertText (utf16 "x\ny")).after s).document
    e.text .lf = utf16 "ab\ncx\nyd" ∧ e.offset e.cursor.position = 7 := by
  intro d s e
  have hcursor : s.document.WellFormed := ⟨by decide, by decide⟩
  have hs : s.Facing fun r => !r.edits :=
    ((Editor.listening_ofDocument _ _).subscribe _ rfl).facing
  obtain ⟨k, hk, hinsert, -⟩ := insertText_inserts_at_offset hcursor
  obtain ⟨htext, hoffset, -, -, -, -, hend, -⟩ := hinsert (utf16 "x\ny")
  have hfour : (4 : Int) = k := (show (4 : Int) = d.offset d.cursor.position by decide).trans hk
  obtain rfl : k = 4 := by omega
  simp only [e, hend hs]
  exact ⟨htext.trans (by decide), hoffset.trans (by decide)⟩

end JadeEditor
