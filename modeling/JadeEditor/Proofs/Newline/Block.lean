import JadeEditor.Proofs.Indent.Alignment
import JadeEditor.Proofs.Line.Comment
import JadeEditor.Proofs.Newline.Split

/-!
# A new block

Behind an opening brace the command for a new line makes room for the body of a block and
closes it on the line below. The brace it writes is the first one behind the opening brace,
so the search for the end of the block stops there, whatever the text behind the cursor was.
-/

namespace JadeEditor

set_option autoImplicit false

open CodeUnit

/-- The column of the last opening brace of a line that ends with it. -/
theorem Line.column_of_last {front back : Text} (hback : ∀ c ∈ back, c.isSpace) {k : Nat}
    (hk : (front ++ openBrace :: back)[k]? = some openBrace)
    (hlast : ∀ j, k < j → (front ++ openBrace :: back)[j]? ≠ some openBrace) :
    k = front.length := by
  rcases Nat.lt_trichotomy k front.length with hless | heq | hmore
  · exact absurd (by simp) (hlast front.length hless)
  · exact heq
  · obtain ⟨j, rfl⟩ := Nat.exists_eq_add_of_lt hmore
    have hmem : openBrace ∈ back := by
      apply List.mem_of_getElem? (i := j)
      rw [← hk, List.getElem?_append_right (by omega)]
      have hbehind : front.length + j + 1 - front.length = j + 1 := by omega
      rw [hbehind, List.getElem?_cons_succ]
    exact absurd (hback _ hmem) (by decide)

namespace Brace

theorem ofPiece_spaces (line column n : Nat) : ofPiece line column (Text.spaces n) = [] := by
  have hfront := ofPiece_append (fun c hc => Line.isBlank_of_mem_spaces (n := n) hc) line column []
  rw [List.append_nil] at hfront
  exact hfront

theorem code_spaces (n : Nat) : Line.code (Text.spaces n) = Text.spaces n := by
  have hfront := Line.code_margin_append
    (fun c hc => Line.isBlank_of_mem_spaces (n := n) hc) []
  rw [List.append_nil, Line.code_nil, List.append_nil] at hfront
  exact hfront

/-- A line that closes a block with its first unit behind the spaces. -/
theorem code_closing (n : Nat) (t : Text) :
    Line.code (Text.spaces n ++ closeBrace :: t) = Text.spaces n ++ closeBrace :: Line.code t := by
  have hbrace : ¬ (closeBrace = slash ∧ t.head? = some slash) := fun h => absurd h.1 (by decide)
  rw [Line.code_margin_append fun c hc => Line.isBlank_of_mem_spaces hc, Line.code_cons hbrace]

theorem closeAfter_empty_block (line inner outer : Nat) (t : Text) (below : List Text) :
    closeAfter (1 : Nat) (ofLines line (Text.spaces inner
      :: (Text.spaces outer ++ closeBrace :: t) :: below)) = some ⟨(line + 1 : Nat), outer⟩ := by
  rw [ofLines, code_spaces, ofPiece_spaces, List.nil_append, ofLines, code_closing,
    ofPiece_append fun c hc => Line.isBlank_of_mem_spaces hc, Nat.zero_add, Text.length_spaces]
  rfl

end Brace

/-- The search for the end of an empty block. -/
theorem Document.closing?_of_empty_block {d : Document} {above below : List Text}
    {front back t : Text} {inner outer : Nat}
    (hlines : d.lines = above ++ (front ++ openBrace :: back) :: Text.spaces inner
      :: (Text.spaces outer ++ closeBrace :: t) :: below)
    (huncommented : Text.has [slash, slash] (front ++ openBrace :: back) = false)
    (hback : ∀ c ∈ back, c.isSpace) :
    d.closing? ⟨above.length, front.length⟩ = some ⟨(above.length + 2 : Nat), outer⟩ := by
  rw [Brace.closing?_of_last hlines huncommented hback, Brace.closeAfter_empty_block]

/-- Behind an opening brace, with white space in between at most, a new line is a new block:
the text before the cursor, a line for the body with the cursor at its end, and the text
behind the cursor behind a closing brace that is indented like the line was. It is one edit,
and unless the line has a comment, the search from its last opening brace finds that brace. -/
theorem newline_opens_block {s : Editor} (hs : s.Reachable) (hdepth : s.depth = 0)
    (hharmless : s.Listening Reaction.harmless)
    (hopens : Line.opensBlock s.document.textBeforeCursor) (unit : Nat) :
    let d := s.document
    let line := d.cursor.line
    let before := d.textBeforeCursor
    let indent := Line.indentation d.currentLine
    ∃ t, Editor.newline unit s = .ok ⟨.bracePair, indent + unit⟩ t
      ∧ t.document.lines = d.lines.take line
        ++ [before, Text.spaces (indent + unit),
          Text.spaces indent ++ closeBrace :: Line.body d.textAfterCursor]
        ++ d.lines.drop (line + 1)
      ∧ t.document.cursor = ⟨line + 1, indent + unit⟩
      ∧ t.version = s.version + 1
      ∧ (Text.has [slash, slash] before = false → ∀ k : Nat, before[k]? = some openBrace →
        (∀ j, k < j → before[j]? ≠ some openBrace) →
        t.document.closing? ⟨line, k⟩ = some ⟨line + 2, indent⟩) := by
  intro d line before indent
  have hcursor : d.WellFormed := hs.sound.wellFormed.document
  have hnewline : d.newline unit = (⟨.bracePair, indent + unit⟩,
      d.openBlock indent (indent + unit)) := Document.newline_of_opensBlock hopens unit
  have hlength : (d.lines.take line).length = line := hcursor.length_take
  obtain ⟨t, hrun⟩ := Editor.newline_succeeds hcursor unit Editor.agreeable_harmless hharmless.facing
  have hannounced := Editor.newline_announced hcursor unit Editor.agreeable_harmless.toOnlooking
    hdepth hharmless
  rw [Edit.after, hrun, finalEditor_ok] at hannounced
  rw [hnewline] at hrun
  have hdocument : t.document = d.openBlock indent (indent + unit) := by
    rw [hannounced.document.eq, Editor.pending, hnewline]
  have hlines := Document.lines_openBlock d indent (indent + unit)
  rw [← hdocument, ← Int.natCast_add, Int.toNat_natCast, Int.toNat_natCast] at hlines
  refine ⟨t, hrun, hlines, ?_, hannounced.version, ?_⟩
  · rw [hdocument, Document.openBlock, Document.cut, ← Int.natCast_add, Int.toNat_natCast]
    simp [hlength, line, d]
  · intro huncommented k hk hlast
    obtain ⟨front, back, hbefore, hback⟩ := Line.opensBlock_iff_split.mp hopens
    have hbrace : d.textBeforeCursor = front ++ openBrace :: back := hbefore
    simp only [before, hbrace] at huncommented hk hlast hlines
    obtain rfl := Line.column_of_last hback hk hlast
    have hclose := Document.closing?_of_empty_block (by simpa using hlines) huncommented hback
    rw [hlength] at hclose
    exact hclose

/-- A block that is opened in the middle of a line, in front of white space and a brace that
stay behind the cursor. -/
theorem newline_opens_block_inside_line :
    let lines := [utf16 "fn f ()", utf16 "  if x \x7b \t\x7d y", utf16 "z"]
    let session : Session := ⟨(Editor.ofDocument (.ofLines lines)).subscribe [] .watch,
      .lookback 4, 0, 0⟩
    let s := ((Action.perform (.setCursor ⟨1, 9⟩)).run session).2.editor
    ∃ t, Editor.newline 4 s = .ok ⟨.bracePair, 6⟩ t
      ∧ t.document.lines = [utf16 "fn f ()", utf16 "  if x \x7b ", utf16 "      ",
        utf16 "  \x7d\x7d y", utf16 "z"]
      ∧ t.document.cursor = ⟨2, 6⟩ ∧ t.version = 1
      ∧ t.document.closing? ⟨1, 7⟩ = some ⟨3, 2⟩ := by
  intro lines session s
  have hs : s.Reachable := .act _ (.subscribe (.start lines) [] .watch)
  have hharmless : s.Listening Reaction.harmless :=
    ((Editor.listening_ofDocument _ _).subscribe _ rfl)
  obtain ⟨t, hrun, hlines, hcursor, hversion, hclose⟩ :=
    newline_opens_block hs rfl hharmless (by decide +kernel) 4
  have hbefore : s.document.textBeforeCursor = utf16 "  if x \x7b " := by decide +kernel
  rw [hbefore] at hclose
  refine ⟨t, hrun, hlines.trans (by decide +kernel), hcursor, hversion, ?_⟩
  refine hclose (by decide) 7 (by decide) fun j hj => ?_
  rcases Nat.lt_or_ge j 9 with hlast | hbehind
  · obtain rfl : j = 8 := by omega
    decide
  · rw [List.getElem?_eq_none (l := utf16 "  if x \x7b ") hbehind]
    exact nofun

end JadeEditor
