import JadeEditor.Proofs.Buffer.OffsetOrder
import JadeEditor.Proofs.Structure.Insertion

/-!
# The entries of an outline

An outline adds its offsets up on the way down, while the start of a line is counted from the
first line each time. Both come to the place of the line in the joined text, so every entry
leads to the line that it is about.
-/

namespace JadeEditor

set_option autoImplicit false

open CodeUnit

/-- From the start of a line on, the joined lines are that line and those below it. -/
theorem Text.drop_unlines_lf {ls : List Text} {i : Nat} {l : Text} (h : ls[i]? = some l) :
    (unlines .lf ls).drop (extent (ls.take i))
      = l ++ (ls.drop (i + 1)).flatMap (lineFeed :: ·) := by
  apply List.ext_getElem?
  intro column
  rw [List.getElem?_drop, getElem?_unlines_lf h]

namespace Document

variable {d : Document}

theorem lineStart_natCast (d : Document) (i : Nat) :
    d.lineStart i = Text.extent (d.lines.take i) := rfl

theorem lineStart_lt_lineStart {i j : Nat} {l : Text} (h : d.lines[i]? = some l) (hij : i < j) :
    d.lineStart i < d.lineStart j := by
  have hbelow := Text.extent_take_le d.lines (show i + 1 ≤ j from hij)
  rw [Text.extent_take_succ h] at hbelow
  rw [lineStart_natCast, lineStart_natCast]
  omega

theorem outline_eq_filterMap (d : Document) :
    d.outline = (List.range d.lines.length).filterMap d.definitionAt? := by
  have hall : d.lines = [] ++ d.lines ++ [] := by rw [List.nil_append, List.append_nil]
  rw [List.range_eq_range']
  exact collect_eq_filterMap hall

theorem definitionAt?_eq_some_iff {i : Nat} {l : Text} (h : d.lines[i]? = some l)
    {e : Definition} : d.definitionAt? i = some e
      ↔ Line.definedName? l = some e.name ∧ e.line = i ∧ e.offset = d.lineStart i := by
  obtain ⟨name, line, offset⟩ := e
  rw [definitionAt?, lineText_of_getElem? h, Option.map_eq_some_iff]
  simp only [Definition.mk.injEq]
  constructor
  · rintro ⟨_, hname, rfl, rfl, rfl⟩
    exact ⟨hname, rfl, rfl⟩
  · rintro ⟨hname, rfl, rfl⟩
    exact ⟨name, hname, rfl, rfl, rfl⟩

theorem mem_outline_iff {e : Definition} : e ∈ d.outline
    ↔ ∃ (i : Nat) (l : Text), d.lines[i]? = some l ∧ Line.definedName? l = some e.name
      ∧ e.line = i ∧ e.offset = d.lineStart i := by
  rw [outline_eq_filterMap, List.mem_filterMap]
  constructor
  · rintro ⟨i, hi, hentry⟩
    have hl := List.getElem?_eq_getElem (List.mem_range.mp hi)
    exact ⟨i, _, hl, (definitionAt?_eq_some_iff hl).mp hentry⟩
  · rintro ⟨i, l, hl, hentry⟩
    have hi := (List.getElem?_eq_some_iff.mp hl).1
    exact ⟨i, List.mem_range.mpr hi, (definitionAt?_eq_some_iff hl).mpr hentry⟩

theorem isDefinition_lineText_iff {line : Int} : Line.isDefinition (d.lineText line) = true
    ↔ ∃ e ∈ d.outline, e.line = line := by
  rw [← Line.isSome_definedName?, Option.isSome_iff_exists]
  constructor
  · rintro ⟨name, hname⟩
    have hne : d.lineText line ≠ [] := by
      intro hempty
      rw [hempty] at hname
      cases hname
    obtain ⟨i, rfl, hl⟩ := exists_of_lineText_ne_nil hne
    exact ⟨⟨name, i, d.lineStart i⟩, mem_outline_iff.mpr ⟨i, _, hl, hname, rfl, rfl⟩, rfl⟩
  · rintro ⟨e, he, rfl⟩
    obtain ⟨i, l, hl, hname, hline, -⟩ := mem_outline_iff.mp he
    rw [hline, lineText_of_getElem? hl]
    exact ⟨e.name, hname⟩

end Document

/-- The outline of a document has one entry for each line that defines a function, in the order
of the lines: the name defined there, the number of the line and the offset of its start. The
offsets increase strictly, the text from the offset of an entry on starts with its line, and
the lines of the entries are the ones that are definitions. -/
theorem outline_lists_definitions (d : Document) :
    d.outline = (List.range d.lines.length).filterMap d.definitionAt?
      ∧ (∀ e, e ∈ d.outline ↔ ∃ (i : Nat) (l : Text), d.lines[i]? = some l
        ∧ Line.definedName? l = some e.name ∧ e.line = i ∧ e.offset = d.lineStart i)
      ∧ d.outline.Pairwise (fun a b => a.line < b.line ∧ a.offset < b.offset)
      ∧ (∀ e ∈ d.outline, d.lineText e.line <+: (d.text .lf).drop e.offset.toNat)
      ∧ ∀ line : Int, Line.isDefinition (d.lineText line) = true
        ↔ ∃ e ∈ d.outline, e.line = line := by
  refine ⟨d.outline_eq_filterMap, fun e => Document.mem_outline_iff, ?_, ?_,
    fun line => Document.isDefinition_lineText_iff⟩
  · refine d.pairwise_outline.imp_of_mem fun {a b} ha hb hline => ⟨hline, ?_⟩
    obtain ⟨i, l, hl, -, hi, hoffset⟩ := Document.mem_outline_iff.mp ha
    obtain ⟨j, -, -, -, hj, hoffset'⟩ := Document.mem_outline_iff.mp hb
    rw [hi, hj] at hline
    rw [hoffset, hoffset']
    exact Int.ofNat_lt.mpr (Document.lineStart_lt_lineStart hl (Int.ofNat_lt.mp hline))
  · intro e he
    obtain ⟨i, l, hl, -, hi, hoffset⟩ := Document.mem_outline_iff.mp he
    rw [hi, Document.lineText_of_getElem? hl, hoffset, Int.toNat_natCast,
      Document.lineStart_natCast, Document.text, Text.drop_unlines_lf hl]
    exact List.prefix_append _ _

end JadeEditor
