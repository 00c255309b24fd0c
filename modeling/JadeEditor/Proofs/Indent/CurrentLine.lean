import JadeEditor.Proofs.Editor.Announcement
import JadeEditor.Proofs.Editor.View
import JadeEditor.Proofs.Newline.Agreement

/-!
# Indenting the current line

To indent the line of the cursor is to replace its margin. The body stays, and the cursor
stays before the same text unless it was in the margin. The new margin is that of the level
that was asked for, so asking again changes nothing; nor does the rule that looks back ask
for another level then, since it reads the lines above and the body only.
-/

namespace JadeEditor

set_option autoImplicit false

namespace Document

/-- The line of the cursor has been given a margin of `target` spaces and nothing else has
changed. A cursor in the old margin goes to the end of the new one; otherwise it stays before
the same text. -/
structure Indented (d : Document) (target : Nat) (e : Document) : Prop where
  wellFormed : e.WellFormed
  lines : e.lines = d.lines.set d.cursor.line (Text.spaces target ++ Line.body d.currentLine)
  line : e.cursor.line = d.cursor.line
  column : (e.cursor.column : Int)
    = if d.cursor.column ≤ (Line.margin d.currentLine).length then (target : Int)
      else d.cursor.column + (target - (Line.margin d.currentLine).length)
  behind : (Line.margin d.currentLine).length ≤ d.cursor.column →
    e.textAfterCursor = d.textAfterCursor

theorem margin_eq_max (level : Rat) : margin level = (max 0 level.floor).toNat := by
  rw [margin]
  omega

/-- The level of a line is not negative, so it can be had as a margin. -/
theorem level_nonneg (d : Document) (unit : Nat) (line : Int) : 0 ≤ d.level unit line := by
  unfold level
  split
  · exact Int.le_refl 0
  · dsimp only
    split
    · exact Int.le_max_left _ _
    · split <;> omega

section Current

variable {d : Document} (h : d.WellFormed)
include h

theorem textAfterCursor_indentLine (level : Rat)
    (hcolumn : (Line.margin d.currentLine).length ≤ d.cursor.column) :
    (d.indentLine level).textAfterCursor = d.textAfterCursor := by
  obtain ⟨k, hk⟩ := Nat.exists_eq_add_of_le hcolumn
  have hnew : (d.indentLine level).cursor.column = (Text.spaces (margin level)).length + k := by
    simp only [indentLine, Text.length_spaces, hk]
    split <;> omega
  have hbody : d.currentLine.drop ((Line.margin d.currentLine).length + k)
      = (Line.body d.currentLine).drop k := by
    have hline := congrArg (List.drop ((Line.margin d.currentLine).length + k))
      (Line.margin_append_body d.currentLine)
    exact hline.symm.trans (List.drop_length_add_append k)
  rw [textAfterCursor, currentLine_indentLine h, hnew, Line.indentTo, List.drop_length_add_append,
    textAfterCursor, hk, hbody]

theorem indented_indentLine (level : Rat) : d.Indented (margin level) (d.indentLine level) where
  wellFormed := wellFormed_indentLine h level
  lines := rfl
  line := rfl
  column := by
    simp only [indentLine]
    split <;> omega
  behind := textAfterCursor_indentLine h level

/-- The lines change just if the current line does. -/
theorem lines_indentLine_eq_iff (level : Rat) : (d.indentLine level).lines = d.lines
    ↔ (d.indentLine level).currentLine = d.currentLine := by
  constructor
  · intro hlines
    rw [currentLine, hlines]
    rfl
  · intro hcurrent
    rw [currentLine_indentLine h] at hcurrent
    have hline : d.currentLine = d.lines.get ⟨d.cursor.line, h.1⟩ := by
      simp [currentLine, List.getElem?_eq_getElem h.1]
    rw [indentLine, hcurrent, hline]
    exact List.set_getElem_self h.1

theorem indentLine_indentLine (level : Rat) :
    (d.indentLine level).indentLine level = d.indentLine level := by
  have hlines : ((d.indentLine level).indentLine level).lines = (d.indentLine level).lines := by
    rw [lines_indentLine_eq_iff (wellFormed_indentLine h level),
      currentLine_indentLine (wellFormed_indentLine h level), currentLine_indentLine h,
      Line.indentTo_indentTo]
  -- Wherever it was before, the cursor is not inside the new margin.
  have hbehind : margin level ≤ (d.indentLine level).cursor.column := by
    simp only [indentLine]
    split <;> omega
  have hcolumn : ((d.indentLine level).indentLine level).cursor.column
      = (d.indentLine level).cursor.column := by
    rw [indentLine, currentLine_indentLine h, Line.margin_indentTo, Text.length_spaces]
    dsimp only
    split <;> omega
  exact congrArg₂ Document.mk hlines (congrArg (Cursor.mk d.cursor.line) hcolumn)

/-- The level is read off the lines above and the body of the line. -/
theorem level_indentLine (level unit : Int) :
    (d.indentLine level).level unit d.cursor.line = d.level unit d.cursor.line := by
  obtain ⟨above, front, back, below, hcut⟩ := h.exists_cut
  have hlines : d.lines = above ++ (front ++ back) :: below := congrArg lines hcut
  have hcursor : d.cursor.line = above.length := congrArg (·.cursor.line) hcut
  rw [hcursor, level_eq_levelUnder (lines_indentLine_start hlines hcursor level),
    level_eq_levelUnder hlines, levelUnder_indentTo]

end Current

end Document

namespace Editor

variable {s : Editor}

/-- Indenting the line of the cursor of `s`, which makes the document `e`. A line that stays as
it is concerns nobody. One that changes is announced at once, to the first listener in any case,
or at the end of the group if one is open. Among listeners that do not edit, the document is `e`
afterwards, and doing it again changes nothing at all. -/
structure Indents (s : Editor) (level : Rat) (e : Document) : Prop where
  silent : e.currentLine = s.document.currentLine →
    indentLine level s = .ok () { s with document := e }
  pending : s.depth ≠ 0 → e.currentLine ≠ s.document.currentLine →
    indentLine level s = .ok () (s.pending e)
  heard : s.depth = 0 → e.currentLine ≠ s.document.currentLine →
    ∀ l, s.listeners.head? = some l →
      s.events ++ [.called l (s.version + 1) e.lines] <+: ((indentLine level).after s).events
  told : s.depth = 0 → s.Listening Reaction.peaceful →
    Announces (e.currentLine != s.document.currentLine) s s ((indentLine level).after s)
  again : (s.Facing fun r => !r.edits) →
    let t := (indentLine level).after s
    t.document = e ∧ indentLine level t = .ok () t
  succeeds : s.Facing Reaction.peaceful →
    indentLine level s = .ok () ((indentLine level).after s)

theorem indentLine_heard {level : Rat} (hdepth : s.depth = 0)
    (hdiffers : ¬ (s.document.indentLine level).lines = s.document.lines) {l : Listener}
    (hl : s.listeners.head? = some l) :
    s.events ++ [.called l (s.version + 1) (s.document.indentLine level).lines]
      <+: ((indentLine level).after s).events := by
  obtain ⟨ls, hfirst⟩ := List.head?_eq_some_iff.mp hl
  have hrun : indentLine level s = flush (s.pending (s.document.indentLine level)) := by
    rw [indentLine_eq, if_neg hdiffers]
    exact if_pos hdepth
  have hround := lineage_roundStable.flush_heard
    (s := s.pending (s.document.indentLine level)) rfl hfirst
  rw [Edit.after, hrun]
  exact hround.events

variable {free : Bool} {Q : Reaction → Bool}

theorem indentLine_facing (hQ : Onlooking free Q) (hs : s.Facing Q) (level : Rat) :
    (s.document.indentLine level).Alike free ((indentLine level).after s).document := by
  rw [Edit.after, indentLine_eq]
  split
  · exact .refl free _
  · exact (mutate_facing hQ hs fun _ => s.document.indentLine level).1

theorem indentLine_succeeds (hQ : Agreeable free Q) (hs : s.Facing Q) (level : Rat) :
    ∃ t, indentLine level s = .ok () t := by
  rw [indentLine_eq]
  split
  · exact ⟨_, rfl⟩
  · exact mutate_succeeds hQ hs _

theorem indents_indentLine (hs : s.Sound) (level : Rat) :
    s.Indents level (s.document.indentLine level) := by
  have hcursor := hs.wellFormed.document
  have hline := Document.lines_indentLine_eq_iff hcursor level
  have hchanges : ((s.document.indentLine level).currentLine != s.document.currentLine)
      = ((s.document.indentLine level).lines != s.document.lines) := by
    rw [Bool.eq_iff_iff, bne_iff_ne, bne_iff_ne, Ne, Ne, hline]
  constructor
  case silent =>
    intro hsame
    rw [indentLine_eq, if_pos (hline.mpr hsame)]
  case pending =>
    intro hopen hdiffers
    rw [indentLine_eq, if_neg (hline.not.mpr hdiffers)]
    exact mutate_pending hopen _
  case heard =>
    intro hdepth hdiffers l hl
    exact indentLine_heard hdepth (hline.not.mpr hdiffers) hl
  case told =>
    intro hdepth hpeaceful
    have hsingle : (Operation.indentLine level).isCommand = false := rfl
    have htold := Operation.announces (.lookback defaultUnit) hs hdepth hpeaceful hsingle
    rw [hchanges]
    rwa [Operation.run, Edit.after_give] at htold
  case again =>
    intro hfacing t
    have hdocument : t.document = s.document.indentLine level :=
      (indentLine_facing onlooking_not_edits hfacing level).eq
    refine ⟨hdocument, indentLine_of_fixed ?_⟩
    rw [hdocument, Document.indentLine_indentLine hcursor]
  case succeeds =>
    intro hpeaceful
    obtain ⟨t, hrun⟩ := indentLine_succeeds agreeable_peaceful hpeaceful level
    rw [Edit.after, hrun, finalEditor_ok]

/-! ## The command -/

theorem indentCurrentLine_alike (hQ : Onlooking free Q) (hs : s.Facing Q) (unit : Int) :
    (s.document.indentLine (s.document.level unit s.document.cursor.line : Int)).Alike free
      ((indentCurrentLine (.lookback unit)).after s).document := by
  have hafter : (indentCurrentLine (.lookback unit)).after s
      = (atomic (indentLine (s.document.level unit s.document.cursor.line : Int))).after s :=
    Edit.after_bind_pure _ (fun _ => s.document.level unit s.document.cursor.line) s
  rw [hafter]
  exact (atomic_indentLine_facing hQ hs _).1

/-- The command comes to the level it has come to before, at which the line is already. -/
theorem indentCurrentLine_again (hs : s.Sound) (hfacing : s.Facing fun r => !r.edits)
    (unit : Int) :
    let t := (indentCurrentLine (.lookback unit)).after s
    indentCurrentLine (.lookback unit) t
      = .ok (s.document.level unit s.document.cursor.line) t := by
  intro t
  have hcursor := hs.wellFormed.document
  have hdocument : t.document
      = s.document.indentLine (s.document.level unit s.document.cursor.line : Int) :=
    (indentCurrentLine_alike onlooking_not_edits hfacing unit).eq
  have hlevel : t.document.level unit t.document.cursor.line
      = s.document.level unit s.document.cursor.line := by
    rw [hdocument]
    exact Document.level_indentLine hcursor _ unit
  have hsound : t.Sound := (steady_stable.indentCurrentLine
    (fun level => steady_stable.atomic (steady_stable.indentLine level)) _ s hs).1
  rw [← hlevel]
  apply indentCurrentLine_of_fixed hsound.settled
  rw [hlevel, hdocument, Document.indentLine_indentLine hcursor]

end Editor

/-- Indenting the line of the cursor, rounding the level down and taking none below zero, keeps
the text of the line and the place of the cursor in it. Listeners are called just if the line
changes, and doing it twice is doing it once. The command that takes the level from the rule
looking back is an instance of this: the line has that level afterwards, and the command comes
to the same level again and changes nothing. -/
theorem indented_line_keeps_text_and_caret {s : Editor} (hs : s.Sound) :
    let d := s.document
    (∀ level : Rat, ∃ e, d.Indented (max 0 level.floor).toNat e ∧ s.Indents level e)
      ∧ ∀ unit : Nat,
        let command := Editor.indentCurrentLine (.lookback unit)
        let level := d.level unit d.cursor.line
        let t := command.after s
        (∃ e, d.Indented level.toNat e ∧ (Line.indentation e.currentLine : Int) = level
          ∧ ((s.Facing fun r => !r.edits) → t.document = e ∧ command t = .ok level t))
        ∧ (s.Facing Reaction.peaceful → command s = .ok level t) := by
  intro d
  have hcursor : d.WellFormed := hs.wellFormed.document
  constructor
  · intro level
    refine ⟨d.indentLine level, ?_, Editor.indents_indentLine hs level⟩
    rw [← Document.margin_eq_max]
    exact Document.indented_indentLine hcursor level
  · intro unit command level t
    refine ⟨⟨d.indentLine (level : Rat), ?_, ?_, fun hfacing => ⟨?_, ?_⟩⟩, fun hpeaceful => ?_⟩
    · rw [← margin_intCast]
      exact Document.indented_indentLine hcursor level
    · rw [Document.currentLine_indentLine hcursor, Line.indentation_indentTo, margin_intCast]
      exact Int.toNat_of_nonneg (d.level_nonneg unit _)
    · exact (Editor.indentCurrentLine_alike Editor.onlooking_not_edits hfacing unit).eq
    · exact Editor.indentCurrentLine_again hs hfacing unit
    · obtain ⟨u, hrun⟩ := Editor.indentCurrentLine_succeeds Editor.agreeable_peaceful hpeaceful unit
      have hend : t = u := by
        simp only [t, command, Edit.after, hrun, finalEditor_ok]
      rw [hend]
      exact hrun

/-- A margin of a space and a tab, with the cursor behind the brace, under a listener that
refuses: the level asked for is not a whole number, and the line closes a block. -/
theorem indented_line_closes_block :
    let d : Document := ⟨[utf16 "  a \x7b", utf16 " \t\x7d b"], ⟨1, 3⟩⟩
    let s := (Editor.ofDocument d).subscribe [] .refuse
    let t := (Editor.indentLine (7 / 2)).after s
    let u := (Editor.indentCurrentLine (.lookback 4)).after s
    t.document.lines = [utf16 "  a \x7b", utf16 "   \x7d b"] ∧ t.document.cursor.column = 4
      ∧ [.called ⟨0, [], .refuse⟩ 1 t.document.lines] <+: t.events
      ∧ Editor.indentLine (7 / 2) t = .ok () t
      ∧ u.document.lines = [utf16 "  a \x7b", utf16 "  \x7d b"]
      ∧ Editor.indentCurrentLine (.lookback 4) u = .ok 2 u := by
  intro d s t u
  have hwell : (Editor.ofDocument d).WellFormed :=
    ⟨⟨by decide, by decide⟩, List.nodup_nil, fun _ h => absurd h List.not_mem_nil⟩
  have hs : s.Sound := ⟨Editor.wellFormed_subscribe hwell [] .refuse, fun _ => rfl⟩
  have hfacing : s.Facing fun r => !r.edits :=
    ((Editor.listening_ofDocument _ _).subscribe _ rfl).facing
  obtain ⟨hindent, hcommand⟩ := indented_line_keeps_text_and_caret hs
  obtain ⟨e, he, hindents⟩ := hindent (7 / 2)
  obtain ⟨⟨e', he', -, htwice⟩, -⟩ := hcommand 4
  obtain ⟨hdocument, hagain⟩ := hindents.again hfacing
  obtain ⟨hdocument', hagain'⟩ := htwice hfacing
  have hlines : t.document.lines = [utf16 "  a \x7b", utf16 "   \x7d b"] := by
    rw [hdocument, he.lines]
    decide +kernel
  have hcolumn : (t.document.cursor.column : Int) = 4 := by
    rw [hdocument, he.column]
    decide +kernel
  have hdiffers : e.currentLine ≠ s.document.currentLine := by
    rw [Document.currentLine, ← hdocument, hlines, hdocument, he.line]
    decide +kernel
  have hheard := hindents.heard rfl hdiffers _ rfl
  rw [← hdocument] at hheard
  have hlines' : u.document.lines = [utf16 "  a \x7b", utf16 "  \x7d b"] :=
    (congrArg Document.lines hdocument').trans (he'.lines.trans (by decide +kernel))
  exact ⟨hlines, Int.ofNat.inj hcolumn, hheard, hagain, hlines', hagain'⟩

end JadeEditor
