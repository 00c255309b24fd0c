import JadeEditor.Proofs.Newline.Split

/-!
# New lines and the rule that looks back

The command for a new line indents what it makes from the line it breaks. The rule that
looks back knows only the lines that are there afterwards. Where the cursor is behind an
opening brace, or at the end of a line that is not blank, both come to the same levels:
the text before the cursor is then the nearest line above that is not blank, and the
indentation and the brace at the end of the line are its own.
-/

namespace JadeEditor

set_option autoImplicit false

open CodeUnit

/-- The number of lines that are added. -/
def NewlineKind.added : NewlineKind → Nat
  | bracePair => 2
  | plain => 1

namespace Document

/-! ## Levels below a line -/

/-- Only blank lines may stand between a line and the one its level is derived from. -/
theorem level_below {d : Document} {above blanks below : List Text} {a t : Text}
    (hlines : d.lines = above ++ a :: blanks ++ t :: below) (ha : ¬ Line.isBlank a = true)
    (hblanks : ∀ b ∈ blanks, Line.isBlank b = true) (unit : Int) :
    d.level unit (above.length + 1 + blanks.length : Nat) = levelUnder unit (some a) t := by
  have hsolid : Line.isSolid a = true := by simpa [Line.isSolid] using ha
  have hnone : blanks.filter Line.isSolid = [] := by
    refine List.filter_eq_nil_iff.mpr fun b hb => ?_
    simp [Line.isSolid, hblanks b hb]
  have hlast : ((above ++ a :: blanks).filter Line.isSolid).getLast? = some a := by
    rw [List.filter_append, List.filter_cons_of_pos hsolid, hnone]
    exact List.getLast?_concat
  have hlength : (above ++ a :: blanks).length = above.length + 1 + blanks.length := by
    rw [List.length_append, List.length_cons]
    omega
  rw [← hlength, level_eq_levelUnder hlines, hlast]

/-- The level of the lines in a block and of the line that closes it. -/
theorem levelUnder_of_opensBlock {a t : Text} (ha : Line.opensBlock a = true) (unit : Nat) :
    levelUnder unit (some a) t
      = (Line.indentation a + if Line.closesBlock t then 0 else unit : Nat) := by
  simp only [levelUnder, ha, if_true]
  cases Line.closesBlock t
  · exact (Int.natCast_add _ _).symm
  · simp

theorem levelUnder_of_no_block {a t : Text} (ha : Line.opensBlock a = false)
    (ht : Line.closesBlock t = false) (unit : Int) :
    levelUnder unit (some a) t = Line.indentation a := by
  simp [levelUnder, ha, ht]

/-- A line that is given its level under the nearest line above that is not blank. -/
theorem indentation_eq_level {d : Document} {above blanks below : List Text} {a t : Text} {n : Nat}
    (hlines : d.lines = above ++ a :: blanks ++ Line.indentTo n t :: below)
    (ha : ¬ Line.isBlank a = true) (hblanks : ∀ b ∈ blanks, Line.isBlank b = true) {unit : Int}
    (hlevel : levelUnder unit (some a) (Line.indentTo n t) = n) {i : Nat}
    (hi : i = above.length + 1 + blanks.length) :
    (Line.indentation (d.lineText i) : Int) = d.level unit i := by
  have htext : d.lineText i = Line.indentTo n t := by
    rw [lineText_natCast, hlines, hi]
    simp [Nat.add_comm, Nat.add_left_comm]
  rw [htext, Line.indentation_indentTo, hi, level_below hlines ha hblanks, hlevel]

/-- A line that has its level stays as it is, and so does the cursor behind its margin. -/
theorem indentLine_of_level {e : Document} {above below : List Text} {n : Nat} {t : Text}
    (he : e = cut above (Text.spaces n) (Line.body t) below) {unit : Int}
    (hlevel : (Line.indentation (e.lineText e.cursor.line) : Int) = e.level unit e.cursor.line) :
    e.indentLine (e.level unit e.cursor.line : Int) = e := by
  have htext : e.lineText e.cursor.line = Line.indentTo n t := by
    rw [lineText_natCast, he]
    exact currentLine_cut above (Text.spaces n) (Line.body t) below
  rw [htext, Line.indentation_indentTo] at hlevel
  rw [← hlevel, he, indentLine_cut _ _ _ _ fun c hc => Line.isBlank_of_mem_spaces hc,
    Line.body_body, Int.toNat_natCast]

/-! ## The levels of new lines -/

section Newline

variable {d : Document}

theorem indentation_currentLine (hsolid : ¬ Line.isBlank d.textBeforeCursor = true) :
    Line.indentation d.currentLine = Line.indentation d.textBeforeCursor := by
  rw [← textBeforeCursor_append_textAfterCursor, Line.indentation_append hsolid]

/-- The two lines that are added behind an opening brace. -/
theorem openBlock_has_levels (hcursor : d.WellFormed)
    (hopens : Line.opensBlock d.textBeforeCursor = true) (unit : Nat) {i : Nat}
    (hlow : d.cursor.line < i) (hhigh : i ≤ d.cursor.line + 2) :
    let indent : Int := Line.indentation d.currentLine
    let e := d.openBlock indent (indent + unit)
    (Line.indentation (e.lineText i) : Int) = e.level unit i := by
  intro indent e
  have hsolid := Line.not_isBlank_of_opensBlock hopens
  have hindent : indent = Line.indentation d.textBeforeCursor :=
    congrArg Nat.cast (indentation_currentLine hsolid)
  let base := Line.indentation d.textBeforeCursor
  let body := Line.indentTo (base + unit) []
  let closing := Line.indentTo base (closeBrace :: Line.body d.textAfterCursor)
  have hfirst : e.lines = d.lines.take d.cursor.line ++ d.textBeforeCursor :: []
      ++ body :: closing :: d.lines.drop (d.cursor.line + 1) := by
    simp only [e, openBlock, cut, hindent, ← Int.natCast_add, Int.toNat_natCast]
    rfl
  have hsecond : e.lines = d.lines.take d.cursor.line ++ d.textBeforeCursor :: [body]
      ++ closing :: d.lines.drop (d.cursor.line + 1) := by
    simpa using hfirst
  rcases Nat.lt_or_ge (d.cursor.line + 1) i with hlast | hbefore
  · have hblank : ∀ b ∈ [body], Line.isBlank b = true := by
      intro b hb
      rw [List.mem_singleton.mp hb, Line.isBlank_indentTo]
      rfl
    refine indentation_eq_level hsecond hsolid hblank ?_ ?_
    · rw [levelUnder_of_opensBlock hopens, Line.closesBlock_indentTo]
      rfl
    · rw [hcursor.length_take, List.length_singleton]
      omega
  · refine indentation_eq_level hfirst hsolid (List.forall_mem_nil _) ?_ ?_
    · rw [levelUnder_of_opensBlock hopens, Line.closesBlock_indentTo]
      rfl
    · rw [hcursor.length_take, List.length_nil]
      omega

/-- The line that is added at the end of a line. -/
theorem breakAt_has_level (hcursor : d.WellFormed) (hsolid : ¬ Line.isBlank d.textBeforeCursor = true)
    (hopens : Line.opensBlock d.textBeforeCursor = false)
    (hblank : Line.isBlank d.textAfterCursor = true) (unit : Int) {i : Nat}
    (hi : i = d.cursor.line + 1) :
    let e := d.breakAt (Line.indentation d.currentLine)
    (Line.indentation (e.lineText i) : Int) = e.level unit i := by
  intro e
  have hlines : e.lines = d.lines.take d.cursor.line ++ d.textBeforeCursor :: []
      ++ Line.indentTo (Line.indentation d.textBeforeCursor) d.textAfterCursor
        :: d.lines.drop (d.cursor.line + 1) := by
    simp only [e, breakAt, cut, indentation_currentLine hsolid, Int.toNat_natCast]
    rfl
  refine indentation_eq_level hlines hsolid (List.forall_mem_nil _) ?_ ?_
  · apply levelUnder_of_no_block hopens
    rw [Line.closesBlock_indentTo, (Line.isBlank_shape hblank).1]
  · rw [hcursor.length_take, List.length_nil, hi]

/-- Where the rest of the line is blank, the line opens a block if its first part does. -/
theorem newline_of_blank (hopens : Line.opensBlock d.textBeforeCursor = false)
    (hblank : Line.isBlank d.textAfterCursor = true) (unit : Int) :
    let indent : Int := Line.indentation d.currentLine
    d.newline unit = (⟨.plain, indent⟩, d.breakAt indent) := by
  have hline : ¬ Line.opensBlock d.currentLine = true := by
    rw [← textBeforeCursor_append_textAfterCursor,
      Line.opensBlock_append_back (List.all_eq_true.mp hblank), hopens]
    exact Bool.false_ne_true
  simp only [newline_of_no_block hopens, if_neg hline]

theorem length_lines_newline (hcursor : d.WellFormed) (unit : Int) :
    (d.newline unit).2.lines.length = d.lines.length + (d.newline unit).1.kind.added := by
  have hline := hcursor.1
  cases hopens : Line.opensBlock d.textBeforeCursor with
  | true =>
    rw [newline_of_opensBlock hopens, lines_openBlock, List.length_append, List.length_append,
      hcursor.length_take, List.length_drop]
    simp only [NewlineKind.added, List.length_cons, List.length_nil]
    omega
  | false =>
    rw [newline_of_no_block hopens, lines_breakAt, List.length_append, List.length_append,
      hcursor.length_take, List.length_drop]
    simp only [NewlineKind.added, List.length_cons, List.length_nil]
    omega

/-- The cursor ends behind the margin of the line below. -/
theorem exists_cut_newline (d : Document) (unit : Int) : ∃ n t below, (d.newline unit).2
    = cut (d.lines.take d.cursor.line ++ [d.textBeforeCursor]) (Text.spaces n) (Line.body t)
      below := by
  unfold newline
  split
  · exact ⟨_, [], _, rfl⟩
  · exact ⟨_, _, _, rfl⟩

variable (hcursor : d.WellFormed) (hsolid : ¬ Line.isBlank d.textBeforeCursor = true)
  (hplace : Line.opensBlock d.textBeforeCursor = true ∨ Line.isBlank d.textAfterCursor = true)
  (unit : Nat)
include hcursor hsolid hplace

theorem newline_has_levels {i : Nat} (hlow : d.cursor.line < i)
    (hhigh : i ≤ d.cursor.line + (d.newline unit).1.kind.added) :
    (Line.indentation ((d.newline unit).2.lineText i) : Int) = (d.newline unit).2.level unit i := by
  cases hopens : Line.opensBlock d.textBeforeCursor with
  | true =>
    rw [newline_of_opensBlock hopens] at hhigh ⊢
    exact openBlock_has_levels hcursor hopens unit hlow hhigh
  | false =>
    have hblank := hplace.resolve_left (Bool.eq_false_iff.mp hopens)
    rw [newline_of_blank hopens hblank] at hhigh ⊢
    exact breakAt_has_level hcursor hsolid hopens hblank unit (Nat.le_antisymm hhigh hlow)

/-- Indenting the line the cursor ends on changes nothing. -/
theorem indentLine_newline :
    let e := (d.newline unit).2
    e.indentLine (e.level unit e.cursor.line : Int) = e := by
  obtain ⟨n, t, below, he⟩ := exists_cut_newline d unit
  have hline : (d.newline unit).2.cursor.line = d.cursor.line + 1 := by
    rw [he]
    simp [cut, hcursor.length_take]
  apply indentLine_of_level he
  rw [hline]
  apply newline_has_levels hcursor hsolid hplace unit (Nat.lt_succ_self _)
  cases (d.newline unit).1.kind <;> simp [NewlineKind.added]

end Newline

end Document

namespace Editor

/-! ## Indenting a line that has its level -/

theorem indentLine_of_fixed {t : Editor} {level : Rat}
    (hfixed : t.document.indentLine level = t.document) : indentLine level t = .ok () t := by
  rw [indentLine_eq, hfixed, if_pos rfl]

theorem indentCurrentLine_of_fixed {t : Editor} (hsettled : t.depth = 0 → t.dirty = false)
    {unit : Int} (hfixed : t.document.indentLine (t.document.level unit t.document.cursor.line : Int)
      = t.document) :
    indentCurrentLine (.lookback unit) t
      = .ok (t.document.level unit t.document.cursor.line) t := by
  let level := t.document.level unit t.document.cursor.line
  have hindent : indentLine (level : Rat) t.openGroup = .ok () t.openGroup :=
    indentLine_of_fixed hfixed
  have hclose : closeGroup t.openGroup = .ok () t := by
    change (if t.depth = 0 then flush t else .ok () t) = .ok () t
    split
    · rename_i houter
      exact flush_of_clean (hsettled houter)
    · rfl
  have hatomic : atomic (indentLine (level : Rat)) t = .ok () t := by
    rw [atomic_eq, hindent, endGroup_ok, hclose]
  rw [indentCurrentLine_eq, Edit.bind_ok hatomic]
  rfl

end Editor

/-- Behind an opening brace, or at the end of a line that is not blank, a new line is one edit
that gives every line it makes the indentation that the rule looking back gives it then, and so
indenting the current line right afterwards leaves the editor as it is. -/
theorem newline_agrees_with_lookback {s : Editor} (hcursor : s.document.WellFormed)
    (hsolid : ¬ Line.isBlank s.document.textBeforeCursor)
    (hplace : Line.opensBlock s.document.textBeforeCursor
      ∨ Line.isBlank s.document.textAfterCursor) (unit : Nat) :
    let d := s.document
    ∃ (r : Newline) (e : Document),
      Editor.newline unit s = (Editor.mutate (fun _ => e) >>= fun _ => pure r) s
        ∧ (r.kind = .bracePair ↔ Line.opensBlock d.textBeforeCursor)
        ∧ e.lines.length = d.lines.length + r.kind.added
        ∧ (∀ i : Nat, d.cursor.line < i → i ≤ d.cursor.line + r.kind.added →
          (Line.indentation (e.lineText i) : Int) = e.level unit i)
        ∧ ((s.Facing fun r => !r.edits) →
          let t := (Editor.newline unit).after s
          t.document = e ∧ Editor.indentCurrentLine (.lookback unit) t
            = .ok (e.level unit e.cursor.line) t)
        ∧ (s.Facing Reaction.peaceful → ∃ t, Editor.newline unit s = .ok r t) := by
  intro d
  refine ⟨(d.newline unit).1, (d.newline unit).2, Editor.newline_eq_mutate hcursor unit, ?_,
    Document.length_lines_newline hcursor unit,
    fun i hlow hhigh => Document.newline_has_levels hcursor hsolid hplace unit hlow hhigh, ?_,
    fun hs => Editor.newline_succeeds hcursor unit Editor.agreeable_peaceful hs⟩
  · cases hopens : Line.opensBlock d.textBeforeCursor with
    | true => simp [Document.newline_of_opensBlock hopens]
    | false => simp [Document.newline_of_no_block hopens]
  · intro hs t
    have hdocument : t.document = (d.newline unit).2 :=
      (Editor.newline_facing hcursor unit Editor.onlooking_not_edits hs).eq
    have hsettled : t.depth = 0 → t.dirty = false := by
      have hafter : t = _ := Editor.newline_after hcursor unit
      rw [hafter]
      exact Editor.mutate_settles Editor.onlooking_not_edits hs _
    refine ⟨hdocument, ?_⟩
    rw [← hdocument]
    apply Editor.indentCurrentLine_of_fixed hsettled
    rw [hdocument]
    exact Document.indentLine_newline hcursor hsolid hplace unit

/-- Between the brace and the cursor there is a space that is no margin, and a brace behind the
cursor; the listener refuses. -/
theorem newline_agrees_behind_brace :
    let d : Document := ⟨[utf16 "fn f () \x7b", [], utf16 "  if x \x7b\u00a0\t\x7d y"], ⟨2, 9⟩⟩
    let s := (Editor.ofDocument d).subscribe [] .refuse
    let t := (Editor.newline 4).after s
    t.document.lines.length = 5
      ∧ (Line.indentation (t.document.lineText 4) : Int) = t.document.level 4 4
      ∧ Editor.indentCurrentLine (.lookback 4) t = .ok 6 t := by
  intro d s t
  have hcursor : s.document.WellFormed := ⟨by decide, by decide⟩
  have hs : s.Facing fun r => !r.edits :=
    ((Editor.listening_ofDocument _ _).subscribe _ rfl).facing
  obtain ⟨r, e, -, hkind, hlength, hlevels, hend, -⟩ :=
    newline_agrees_with_lookback hcursor (by decide +kernel) (.inl (by decide +kernel)) 4
  have hpair : r.kind = .bracePair := hkind.mpr (by decide +kernel)
  rw [hpair] at hlength hlevels
  have hdocument : t.document = e := (hend hs).1
  have hindent : Editor.indentCurrentLine (.lookback 4) t
      = .ok (e.level 4 e.cursor.line) t := (hend hs).2
  have hlevel : e.level 4 e.cursor.line = 6 := by
    rw [← hdocument]
    decide +kernel
  rw [hlevel] at hindent
  rw [hdocument]
  exact ⟨hlength, hlevels 4 (by decide) (by decide), hindent⟩

end JadeEditor
