import JadeEditor.Proofs.Buffer.Caret
import JadeEditor.Proofs.Indent.Layout
import JadeEditor.Proofs.Structure.Outline

/-!
# The outline under an insertion

An inserted text puts a row of new lines in the place of the cursor's line. Below that row
nothing has changed but that it stands as many lines further down as the text has breaks, and
as many units as the text is long. So the outline keeps its entries above the cursor's line,
moves those below it, and only the new lines have to be looked at again.
-/

namespace JadeEditor

set_option autoImplicit false

open CodeUnit

namespace Definition

/-- The entry when it stands further down. -/
def shift (lines units : Nat) (e : Definition) : Definition :=
  ⟨e.name, e.line + lines, e.offset + units⟩

theorem collect_shift (lines units line offset : Nat) (ts : List Text) :
    collect (line + lines) (offset + units) ts
      = (collect line offset ts).map (shift lines units) := by
  induction ts generalizing line offset with
  | nil => rfl
  | cons t ts ih =>
    have hrest := ih (line + 1) (offset + t.length + 1)
    have hline : line + 1 + lines = line + lines + 1 := by omega
    have hoffset : offset + t.length + 1 + units = offset + units + t.length + 1 := by omega
    rw [hline, hoffset] at hrest
    simp only [collect, hrest]
    cases Line.definedName? t with
    | none => rfl
    | some name => simp [shift]

theorem filter_collect_of_all {p : Definition → Bool} {line offset : Nat} {ts : List Text}
    (h : ∀ e : Definition, (line : Int) ≤ e.line → e.line < (line + ts.length : Nat) →
      p e = true) : (collect line offset ts).filter p = collect line offset ts :=
  List.filter_eq_self.mpr fun e he => h e (line_of_mem_collect he) (line_lt_of_mem_collect he)

theorem filter_collect_of_none {p : Definition → Bool} {line offset : Nat} {ts : List Text}
    (h : ∀ e : Definition, (line : Int) ≤ e.line → e.line < (line + ts.length : Nat) →
      ¬ p e = true) : (collect line offset ts).filter p = [] :=
  List.filter_eq_nil_iff.mpr fun e he => h e (line_of_mem_collect he) (line_lt_of_mem_collect he)

end Definition

namespace Document

/-- The entry of the outline for a line, if the line defines a function. -/
def definitionAt? (d : Document) (line : Nat) : Option Definition :=
  (Line.definedName? (d.lineText line)).map fun name => ⟨name, line, d.lineStart line⟩

theorem collect_eq_filterMap {d : Document} {above ts below : List Text}
    (h : d.lines = above ++ ts ++ below) :
    Definition.collect above.length (Text.extent above) ts
      = (List.range' above.length ts.length).filterMap d.definitionAt? := by
  induction ts generalizing above with
  | nil => rfl
  | cons t ts ih =>
    have hlines : d.lines = above ++ [t] ++ ts ++ below := by simpa using h
    have hrest := ih hlines
    have hentry : d.definitionAt? above.length = (Line.definedName? t).map fun name =>
        ⟨name, above.length, Text.extent above⟩ := by
      simp [definitionAt?, lineStart, h]
    have hextent : Text.extent (above ++ [t]) = Text.extent above + t.length + 1 := by
      simp [Text.extent_eq_length]
      omega
    rw [List.length_append, List.length_singleton, hextent] at hrest
    rw [List.length_cons, List.range'_succ, List.filterMap_cons, hentry, Definition.collect, hrest]
    cases Line.definedName? t with
    | none => rfl
    | some name => rfl

/-! ## The new lines -/

theorem wellFormed_cut (above : List Text) (front back : Text) (below : List Text) :
    (cut above front back below).WellFormed := by
  constructor
  · simp [cut]
  · rw [currentLine_cut, List.length_append]
    exact Nat.le_add_right _ _

theorem exists_lines_insert (above : List Text) (front back : Text) (below : List Text)
    (t : Text) : ∃ new, ((cut above front back below).insert t).lines = above ++ new ++ below
      ∧ new.length = t.count lineFeed + 1
      ∧ Text.extent new = Text.extent [front ++ back] + t.length := by
  induction t generalizing above front with
  | nil =>
    rw [insert_nil (wellFormed_cut _ _ _ _)]
    exact ⟨[front ++ back], by simp [cut], rfl, rfl⟩
  | cons c t ih =>
    rw [insert_cons (wellFormed_cut _ _ _ _), insertUnit]
    by_cases hc : c = lineFeed
    · -- What stands before the cursor is a line of its own from now on.
      obtain ⟨new, hlines, hlength, hextent⟩ := ih (above ++ [front]) []
      rw [if_pos hc, breakLine_cut, hlines, hc, List.count_cons_self]
      refine ⟨front :: new, by simp, by simp [hlength], ?_⟩
      simp only [Text.extent, hextent, List.length_append, List.length_cons, List.nil_append]
      omega
    · obtain ⟨new, hlines, hlength, hextent⟩ := ih above (front ++ [c])
      rw [if_neg hc, insertPiece_cut, hlines, List.count_cons_of_ne hc]
      refine ⟨new, rfl, hlength, ?_⟩
      simp only [Text.extent, hextent, List.length_append, List.length_cons]
      simp only [List.length_nil]
      omega

/-! ## The outline in three parts -/

section Parts

variable {d : Document} {above below : List Text} {l : Text} (h : d.lines = above ++ [l] ++ below)
include h

theorem outline_above :
    (d.outline.filter fun e => e.line < (above.length : Int)) = Definition.collect 0 0 above := by
  rw [outline_of_lines h, List.filter_append, List.filter_append,
    Definition.filter_collect_of_all ?_, Definition.filter_collect_of_none ?_,
    Definition.filter_collect_of_none ?_, List.append_nil, List.append_nil]
  · intro e hfirst _
    rw [decide_eq_true_eq]
    omega
  · intro e hfirst _
    rw [decide_eq_true_eq]
    omega
  · intro e _ hlast
    rw [decide_eq_true_eq]
    omega

theorem outline_below :
    (d.outline.filter fun e => (above.length : Int) < e.line)
      = Definition.collect (above.length + 1) (Text.extent above + Text.extent [l]) below := by
  rw [outline_of_lines h, List.filter_append, List.filter_append,
    Definition.filter_collect_of_none ?_, Definition.filter_collect_of_none ?_,
    Definition.filter_collect_of_all ?_, List.nil_append, List.nil_append, List.length_singleton]
  · intro e hfirst _
    rw [List.length_singleton] at hfirst
    rw [decide_eq_true_eq]
    omega
  · intro e _ hlast
    rw [List.length_singleton] at hlast
    rw [decide_eq_true_eq]
    omega
  · intro e _ hlast
    rw [decide_eq_true_eq]
    omega

end Parts

end Document

/-- Inserting a text changes the outline only where the new lines are: the entries above the
cursor's line stay, each of the new lines that defines a function has its entry, and the entries
below stand as many lines further down as the text has line feeds and as many units as it is
long. That is the outline of the document listeners are told of, and of the one that is there in
the end unless one of them changes the text. -/
theorem outline_follows_insertion {s : Editor} (hcursor : s.document.WellFormed) (t : Text) :
    let d := s.document
    let e := d.insert t
    let line := d.cursor.line
    let breaks := t.count lineFeed
    e.outline = (d.outline.filter fun x => x.line < (line : Int))
        ++ (List.range' line (breaks + 1)).filterMap e.definitionAt?
        ++ (d.outline.filter fun x => (line : Int) < x.line).map (Definition.shift breaks t.length)
      ∧ (s.depth = 0 → t ≠ [] →
        Editor.insertText t s = Editor.flush { s with document := e, dirty := true })
      ∧ ((s.Facing fun r => !r.writes) → ((Editor.insertText t).after s).document.lines = e.lines)
      ∧ ((s.Facing fun r => !r.edits) → ((Editor.insertText t).after s).document = e)
      ∧ (s.Facing Reaction.peaceful → ∃ u, Editor.insertText t s = .ok () u) := by
  intro d e line breaks
  refine ⟨?_, fun hdepth ht => Editor.insertText_eq_flush hdepth ht,
    fun hs => (Editor.insertText_facing Editor.onlooking_not_writes hs hcursor t).1.lines,
    fun hs => (Editor.insertText_facing Editor.onlooking_not_edits hs hcursor t).1.eq,
    fun hs => Editor.insertText_succeeds Editor.agreeable_peaceful hs t⟩
  obtain ⟨above, front, back, below, hcut⟩ := hcursor.exists_cut
  have hline : line = above.length := congrArg (·.cursor.line) hcut
  have hgiven : d.lines = above ++ [front ++ back] ++ below := by
    simp [d, hcut, Document.cut]
  obtain ⟨new, hlines, hlength, hextent⟩ := Document.exists_lines_insert above front back below t
  rw [← hcut] at hlines
  have hbelow : (Definition.collect (above.length + 1)
      (Text.extent above + Text.extent [front ++ back]) below).map
        (Definition.shift breaks t.length)
      = Definition.collect (above.length + new.length) (Text.extent above + Text.extent new)
        below := by
    rw [← Definition.collect_shift, hextent, hlength, Nat.add_assoc, Nat.add_assoc,
      Nat.add_comm 1]
  rw [hline, Document.outline_above hgiven, Document.outline_below hgiven, hbelow, ← hlength,
    ← Document.collect_eq_filterMap hlines]
  exact Document.outline_of_lines hlines

/-- Three lines typed into the middle of a header, which is one no more, under a listener that
moves the cursor and then fails. -/
theorem outline_behind_typed_header :
    let d : Document := ⟨[utf16 "fn a()", utf16 "fn b()", utf16 "fn c()"], ⟨1, 3⟩⟩
    let s := (Editor.ofDocument d).subscribe []
      { turns := [.stroke (.moveTo ⟨0, 0⟩) (.fail (.raised []))] }
    ((Editor.insertText (utf16 "x()\n\nfn y () ")).after s).document.outline
      = [⟨utf16 "a", 0, 0⟩, ⟨utf16 "x", 1, 7⟩, ⟨utf16 "y", 3, 15⟩, ⟨utf16 "c", 4, 27⟩] := by
  intro d s
  have hcursor : s.document.WellFormed := ⟨by decide, by decide⟩
  have hs : s.Facing fun r => !r.writes :=
    ((Editor.listening_ofDocument _ _).subscribe _ rfl).facing
  obtain ⟨houtline, -, hend, -⟩ := outline_follows_insertion hcursor (utf16 "x()\n\nfn y () ")
  rw [Document.outline, hend hs, ← Document.outline, houtline]
  decide +kernel

end JadeEditor
