import JadeEditor.Buffer.LineEnding
import JadeEditor.Buffer.Position
import JadeEditor.Line.Shape

/-!
# Documents

A document is a list of lines with a cursor, and this module gives the four ways
to edit it: moving the cursor, inserting text, breaking the line and setting the
indentation. Every edit happens at the cursor, and every one of them keeps a
well-formed document well-formed.

The offset of a position is its distance from the start of the document when the
lines are joined with one unit between neighbours.
-/

namespace JadeEditor

set_option autoImplicit false

/-- `value` moved into the range from `0` to `high`. -/
def clamp (value : Int) (high : Nat) : Nat := min value.toNat high

/-- The index of the last element that satisfies `p`. -/
def lastIndex? {α : Type} (p : α → Bool) : List α → Option Nat
  | [] => none
  | a :: as =>
    match lastIndex? p as with
    | some i => some (i + 1)
    | none => if p a then some 0 else none

structure Document where
  lines : List Text
  cursor : Cursor
  deriving DecidableEq

namespace Document

/-- A document of the given lines, or of one empty line, with the cursor at its start. -/
def ofLines (lines : List Text) : Document :=
  ⟨if lines.isEmpty then [[]] else lines, Cursor.origin⟩

def ofText (t : Text) : Document := ofLines t.lines

def text (d : Document) (ending : LineEnding) : Text := Text.unlines ending d.lines

/-- The text of a line, empty outside the document. -/
def lineText (d : Document) (line : Int) : Text :=
  if line < 0 then [] else d.lines.getD line.toNat []

def currentLine (d : Document) : Text := d.lines.getD d.cursor.line []

def textBeforeCursor (d : Document) : Text := d.currentLine.take d.cursor.column

def textAfterCursor (d : Document) : Text := d.currentLine.drop d.cursor.column

/-- There is a line, and the cursor is on one of them and not behind its end. -/
def WellFormed (d : Document) : Prop :=
  d.cursor.line < d.lines.length ∧ d.cursor.column ≤ d.currentLine.length

/-- The position is a place between two units of the document. -/
def Contains (d : Document) (p : Position) : Prop :=
  0 ≤ p.line ∧ p.line < d.lines.length ∧ 0 ≤ p.column ∧ p.column ≤ (d.lineText p.line).length

/-- The offset of the start of a line; a line outside the document counts as the
nearest end. -/
def lineStart (d : Document) (line : Int) : Nat :=
  Text.extent (d.lines.take line.toNat)

def offset (d : Document) (p : Position) : Int := d.lineStart p.line + p.column

/-- Puts the cursor at the position of the document closest to the one asked for. -/
def moveTo (d : Document) (p : Position) : Document :=
  let line := clamp p.line (d.lines.length - 1)
  { d with cursor := ⟨line, clamp p.column (d.lines.getD line []).length⟩ }

/-- Cuts the line at the cursor; the cursor goes to the start of the second part. -/
def breakLine (d : Document) : Document where
  lines := d.lines.take d.cursor.line ++ [d.textBeforeCursor, d.textAfterCursor]
    ++ d.lines.drop (d.cursor.line + 1)
  cursor := ⟨d.cursor.line + 1, 0⟩

/-- Inserts a text without line feeds and moves the cursor behind it. -/
def insertPiece (d : Document) (piece : Text) : Document where
  lines := d.lines.set d.cursor.line (d.textBeforeCursor ++ piece ++ d.textAfterCursor)
  cursor := ⟨d.cursor.line, d.cursor.column + piece.length⟩

/-- Inserts a text, breaking the line at each of its line feeds. -/
def insert (d : Document) (t : Text) : Document :=
  let (piece, more) := t.splitOn CodeUnit.lineFeed
  more.foldl (fun d piece => d.breakLine.insertPiece piece) (d.insertPiece piece)

/-- The number of spaces a requested level stands for: rounded down, and none when
negative. -/
def margin (level : Rat) : Nat := level.floor.toNat

/-- Replaces the leading spaces and tabs of the cursor's line. A cursor among them
goes to the end of the new ones, otherwise it stays at the same unit. -/
def indentLine (d : Document) (level : Rat) : Document :=
  let target := margin level
  let old := (Line.margin d.currentLine).length
  let column := if d.cursor.column ≤ old then target else d.cursor.column - old + target
  { lines := d.lines.set d.cursor.line (Line.indentTo target d.currentLine)
    cursor := ⟨d.cursor.line, column⟩ }

@[simp] theorem lineStart_zero (d : Document) : d.lineStart 0 = 0 := rfl

@[simp] theorem lines_moveTo (d : Document) (p : Position) : (d.moveTo p).lines = d.lines := rfl

theorem ofLines_lines_ne_nil (lines : List Text) : (ofLines lines).lines ≠ [] := by
  cases lines <;> simp [ofLines]

theorem clamp_le (value : Int) (high : Nat) : clamp value high ≤ high := Nat.min_le_right _ _

theorem wellFormed_ofLines (lines : List Text) : (ofLines lines).WellFormed := by
  constructor
  · exact List.length_pos_iff.mpr (ofLines_lines_ne_nil lines)
  · exact Nat.zero_le _

theorem wellFormed_moveTo {d : Document} (h : d.lines ≠ []) (p : Position) :
    (d.moveTo p).WellFormed := by
  have hpos := List.length_pos_iff.mpr h
  constructor
  · have hline := clamp_le p.line (d.lines.length - 1)
    simp only [moveTo]
    omega
  · exact clamp_le p.column _

theorem wellFormed_insertPiece {d : Document} (h : d.WellFormed) (piece : Text) :
    (d.insertPiece piece).WellFormed := by
  obtain ⟨hline, hcolumn⟩ := h
  constructor
  · simpa [insertPiece] using hline
  · simp only [insertPiece, currentLine, textBeforeCursor, textAfterCursor,
      List.getD_eq_getElem?_getD, List.getElem?_set_self hline, Option.getD_some,
      List.length_append, List.length_take, List.length_drop] at *
    omega

theorem wellFormed_breakLine {d : Document} (h : d.WellFormed) : d.breakLine.WellFormed := by
  constructor
  · have hline := h.1
    simp only [breakLine, List.length_append, List.length_take, List.length_drop,
      List.length_cons, List.length_nil]
    omega
  · exact Nat.zero_le _

theorem wellFormed_insert {d : Document} (h : d.WellFormed) (t : Text) :
    (d.insert t).WellFormed := by
  have hfold : ∀ (more : List Text) (e : Document), e.WellFormed →
      (more.foldl (fun e piece => e.breakLine.insertPiece piece) e).WellFormed := by
    intro more
    induction more with
    | nil => exact fun _ he => he
    | cons piece more ih =>
      intro e he
      exact ih _ (wellFormed_insertPiece (wellFormed_breakLine he) piece)
  exact hfold _ _ (wellFormed_insertPiece h _)

theorem currentLine_indentLine {d : Document} (h : d.WellFormed) (level : Rat) :
    (d.indentLine level).currentLine = Line.indentTo (margin level) d.currentLine := by
  simp [indentLine, currentLine, List.getElem?_set_self h.1]

theorem wellFormed_indentLine {d : Document} (h : d.WellFormed) (level : Rat) :
    (d.indentLine level).WellFormed := by
  obtain ⟨hline, hcolumn⟩ := h
  constructor
  · simpa [indentLine] using hline
  · have hcut := congrArg List.length (Line.margin_append_body d.currentLine)
    rw [List.length_append] at hcut
    rw [currentLine_indentLine ⟨hline, hcolumn⟩]
    simp only [indentLine, Line.indentTo, List.length_append, Text.length_spaces]
    split <;> omega

end Document

end JadeEditor
