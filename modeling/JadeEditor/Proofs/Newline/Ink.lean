import JadeEditor.Proofs.Newline.Block

/-!
# What a new line writes

Apart from white space a document keeps what is written in it when its line is broken, unless
the text before the cursor ends in an opening brace: then a closing one is written behind it.
Whether that opening brace is in a comment is not asked. If it is, the closing one is code all
the same, as it starts a line of its own, and there is no brace for it to match.
-/

namespace JadeEditor

set_option autoImplicit false

open CodeUnit

namespace Text

/-- What is written in a text: its units that are not white space, in their order. -/
def ink (t : Text) : Text := t.filter (!·.isSpace)

@[simp] theorem ink_append (a b : Text) : ink (a ++ b) = ink a ++ ink b := List.filter_append ..

theorem ink_of_space {t : Text} (h : ∀ c ∈ t, c.isSpace) : ink t = [] := by
  refine List.filter_eq_nil_iff.mpr fun c hc => ?_
  simp [h c hc]

@[simp] theorem ink_spaces (n : Nat) : ink (spaces n) = [] := ink_of_space Line.isSpace_of_mem_spaces

@[simp] theorem ink_body (t : Text) : ink (Line.body t) = ink t := by
  conv_rhs => rw [← Line.margin_append_body t, ink_append, ink_of_space Line.isSpace_of_mem_margin]
  rfl

theorem ink_unlines (ending : LineEnding) (ls : List Text) :
    ink (unlines ending ls) = ls.flatMap ink := by
  have hending : ink ending.text = [] := by cases ending <;> decide
  induction ls with
  | nil => rfl
  | cons l ls ih =>
    cases ls with
    | nil => simp
    | cons m ls =>
      rw [unlines_cons_cons, ink_append, ink_append, ih, hending, List.nil_append]
      rfl

theorem ink_flatMap (f : Text → Text) (hf : ∀ l, ink (f l) = ink l) (ls : List Text) :
    ink (ls.flatMap f) = ls.flatMap ink := by
  induction ls with
  | nil => rfl
  | cons l ls ih => rw [List.flatMap_cons, ink_append, hf, ih, List.flatMap_cons]

end Text

namespace Line

theorem slash_mem_remark {t : Text} (h : Text.has [slash, slash] t = true) : slash ∈ remark t := by
  induction t with
  | nil => exact absurd h (by decide)
  | cons c t ih =>
    by_cases hslash : c = slash ∧ t.head? = some slash
    · obtain ⟨rfl, hhead⟩ := hslash
      obtain ⟨u, rfl⟩ := List.head?_eq_some_iff.mp hhead
      rw [remark, code_slashes]
      exact List.mem_cons_self
    · rw [remark_cons hslash]
      exact ih (((Text.has_pair_cons _ _ _ _).mp h).resolve_left hslash)

/-- A comment does not start behind the brace, so it starts before it. -/
theorem length_code_le {front back : Text} (hback : ∀ c ∈ back, c.isSpace)
    (h : Text.has [slash, slash] (front ++ openBrace :: back) = true) :
    (code (front ++ openBrace :: back)).length ≤ front.length := by
  by_contra hlong
  obtain ⟨m, hm⟩ := Nat.exists_eq_add_of_lt (Nat.lt_of_not_le hlong)
  have hslash := slash_mem_remark h
  rw [remark, hm, Nat.add_assoc, ← List.drop_drop, List.drop_left, List.drop_succ_cons] at hslash
  exact absurd (hback slash (List.mem_of_mem_drop hslash)) (by decide)

end Line

namespace Document

theorem ink_before (d : Document) : Text.ink d.caret.before
    = (d.lines.take d.cursor.line).flatMap Text.ink ++ Text.ink d.textBeforeCursor := by
  have hfeed : Text.ink [lineFeed] = [] := by decide
  rw [caret, Text.ink_append, Text.ink_flatMap]
  intro l
  rw [Text.ink_append, hfeed, List.append_nil]

theorem ink_behind (d : Document) : Text.ink d.caret.behind
    = Text.ink d.textAfterCursor ++ (d.lines.drop (d.cursor.line + 1)).flatMap Text.ink := by
  have hfeed : Text.ink [lineFeed] = [] := by decide
  rw [caret, Text.ink_append, Text.ink_flatMap]
  intro l
  rw [← List.singleton_append, Text.ink_append, hfeed, List.nil_append]

theorem ink_text {d : Document} (h : d.WellFormed) (ending : LineEnding) :
    Text.ink (d.text ending) = Text.ink d.caret.before ++ Text.ink d.caret.behind := by
  have hlf : Text.ink (d.text .lf) = Text.ink (d.text ending) := by
    rw [text, text, Text.ink_unlines, Text.ink_unlines]
  rw [← hlf, text_eq_caret h, Caret.text, Text.ink_append]

theorem ink_breakAt (d : Document) (level : Int) (ending : LineEnding) :
    Text.ink ((d.breakAt level).text ending)
      = Text.ink d.caret.before ++ Text.ink d.caret.behind := by
  rw [text, Text.ink_unlines, lines_breakAt, ink_before, ink_behind]
  simp [Line.indentTo]

theorem ink_openBlock (d : Document) (outer inner : Int) (ending : LineEnding) :
    Text.ink ((d.openBlock outer inner).text ending)
      = Text.ink d.caret.before ++ closeBrace :: Text.ink d.caret.behind := by
  have hbrace : ∀ t, Text.ink (closeBrace :: t) = closeBrace :: Text.ink t := fun t => rfl
  rw [text, Text.ink_unlines, lines_openBlock, ink_before, ink_behind]
  simp [hbrace]

/-- A brace in a comment is closed by one outside. -/
theorem codeAt?_openBlock {d : Document} (h : d.WellFormed)
    (hopens : Line.opensBlock d.textBeforeCursor = true)
    (hcomment : Text.has [slash, slash] d.textBeforeCursor = true) (outer : Nat) (inner : Int) :
    let e := d.openBlock outer inner
    e.codeAt? ⟨d.cursor.line + 2, outer⟩ = some closeBrace
      ∧ ∀ k : Nat, d.textBeforeCursor[k]? = some openBrace →
        (∀ j, k < j → d.textBeforeCursor[j]? ≠ some openBrace) →
        e.codeAt? ⟨d.cursor.line, k⟩ = none := by
  intro e
  have hlines := lines_openBlock d outer inner
  have hfirst : e.lineText d.cursor.line = d.textBeforeCursor := by
    rw [lineText_natCast, hlines]
    simp [h.length_take]
  have hlast : e.lineText (d.cursor.line + 2 : Nat)
      = Text.spaces outer ++ closeBrace :: Line.body d.textAfterCursor := by
    rw [lineText_natCast, hlines]
    simp [h.length_take]
  constructor
  · change e.codeAt? ⟨(d.cursor.line + 2 : Nat), outer⟩ = _
    rw [codeAt?_natCast, hlast, Brace.code_closing]
    simp
  · intro k hk hafter
    obtain ⟨front, back, hbefore, hback⟩ := Line.opensBlock_iff_split.mp hopens
    rw [codeAt?_natCast, hfirst]
    rw [hbefore] at hcomment hk hafter ⊢
    obtain rfl := Line.column_of_last hback hk hafter
    exact List.getElem?_eq_none (Line.length_code_le hback hcomment)

end Document

/-- A new line is one edit. It takes the brace-pair branch if and only if the text before the
cursor ends in an opening brace and white space, and this is the only case in which more than
white space is written, namely one closing brace; otherwise the line is broken and the new one
indented, and that is all. It makes no difference whether the opening brace is in a comment,
although the closing one never is. -/
theorem newline_keeps_ink_iff {s : Editor} (hcursor : s.document.WellFormed) (unit : Int) :
    let d := s.document
    let line := d.cursor.line
    let before := d.textBeforeCursor
    let indent := Line.indentation d.currentLine
    ∃ (r : Newline) (e : Document),
      Editor.newline unit s = (Editor.mutate (fun _ => e) >>= fun _ => pure r) s
        ∧ (∀ ending, Text.ink (e.text ending) = Text.ink (d.text ending)
          ↔ Line.opensBlock before = false)
        ∧ (Line.opensBlock before = false →
          r = ⟨.plain, if Line.opensBlock d.currentLine then indent + unit else indent⟩
          ∧ e.lines = d.lines.take line
            ++ [before, Line.indentTo r.indent.toNat d.textAfterCursor] ++ d.lines.drop (line + 1)
          ∧ e.cursor = ⟨line + 1, r.indent.toNat⟩)
        ∧ (Line.opensBlock before = true → r = ⟨.bracePair, indent + unit⟩
          ∧ (∀ ending, Text.ink (e.text ending)
            = Text.ink d.caret.before ++ closeBrace :: Text.ink d.caret.behind)
          ∧ (Text.has [slash, slash] before = true →
            e.codeAt? ⟨line + 2, indent⟩ = some closeBrace
              ∧ ∀ k : Nat, before[k]? = some openBrace →
                (∀ j, k < j → before[j]? ≠ some openBrace) → e.codeAt? ⟨line, k⟩ = none))
        ∧ ((s.Facing fun r => !r.writes) →
          ((Editor.newline unit).after s).document.lines = e.lines)
        ∧ ((s.Facing fun r => !r.edits) → ((Editor.newline unit).after s).document = e)
        ∧ (s.Facing Reaction.peaceful → ∃ t, Editor.newline unit s = .ok r t) := by
  intro d line before indent
  refine ⟨(d.newline unit).1, (d.newline unit).2, Editor.newline_eq_mutate hcursor unit,
    fun ending => ?_, fun hplain => ?_, fun hopens => ?_,
    fun hs => (Editor.newline_facing hcursor unit Editor.onlooking_not_writes hs).lines,
    fun hs => (Editor.newline_facing hcursor unit Editor.onlooking_not_edits hs).eq,
    fun hs => Editor.newline_succeeds hcursor unit Editor.agreeable_peaceful hs⟩
  · have hink : Text.ink (d.text ending)
        = Text.ink d.caret.before ++ Text.ink d.caret.behind := Document.ink_text hcursor ending
    rw [hink]
    cases hopens : Line.opensBlock before with
    | true =>
      rw [Document.newline_of_opensBlock hopens, Document.ink_openBlock]
      simp
    | false =>
      rw [Document.newline_of_no_block hopens, Document.ink_breakAt]
      exact ⟨fun _ => rfl, fun _ => rfl⟩
  · rw [Document.newline_of_no_block hplain]
    refine ⟨rfl, Document.lines_breakAt d _, ?_⟩
    simp [Document.breakAt, Document.cut, hcursor.length_take, line, d]
  · rw [Document.newline_of_opensBlock hopens]
    exact ⟨rfl, Document.ink_openBlock d _ _, fun hcomment =>
      Document.codeAt?_openBlock hcursor hopens hcomment _ _⟩

/-- In a comment that goes on behind its brace, under a listener that moves the cursor. -/
theorem newline_in_comment_keeps_ink :
    let d : Document := ⟨[utf16 "  // a \x7b b"], ⟨0, 10⟩⟩
    let s := (Editor.ofDocument d).subscribe [] { turns := [.stroke (.moveTo ⟨0, 0⟩) .done] }
    ∃ t, Editor.newline 4 s = .ok ⟨.plain, 2⟩ t
      ∧ Text.ink (t.document.text .crlf) = Text.ink (d.text .crlf) := by
  intro d s
  have hcursor : s.document.WellFormed := ⟨by decide, by decide⟩
  have hs : s.Facing Reaction.peaceful :=
    ((Editor.listening_ofDocument _ _).subscribe _ rfl).facing
  have hs' : s.Facing fun r => !r.writes :=
    ((Editor.listening_ofDocument _ _).subscribe _ rfl).facing
  have hplain : Line.opensBlock s.document.textBeforeCursor = false := by decide +kernel
  have hline : Line.opensBlock s.document.currentLine = false := by decide +kernel
  obtain ⟨r, e, -, hink, hbreak, -, hend, -, hruns⟩ := newline_keeps_ink_iff hcursor 4
  obtain ⟨rfl, -, -⟩ := hbreak hplain
  obtain ⟨t, hrun⟩ := hruns hs
  have hlines := hend hs'
  rw [Edit.after, hrun, finalEditor_ok] at hlines
  rw [hline] at hrun
  refine ⟨t, hrun, ?_⟩
  rw [Document.text, hlines]
  exact (hink .crlf).mpr hplain

/-- The block of a brace that is all there is in a comment. -/
theorem newline_in_comment_writes_brace :
    let d : Document := ⟨[utf16 "// \x7b"], ⟨0, 4⟩⟩
    let s := Editor.ofDocument d
    Text.has [slash, slash] d.textBeforeCursor = true
      ∧ ∃ t, Editor.newline 4 s = .ok ⟨.bracePair, 4⟩ t
        ∧ t.document.lines = [utf16 "// \x7b", utf16 "    ", utf16 "\x7d"]
        ∧ Text.ink (t.document.text .lf) ≠ Text.ink (d.text .lf) := by
  intro d s
  have hcursor : s.document.WellFormed := ⟨by decide, by decide⟩
  have hs : s.Facing Reaction.harmless := (Editor.listening_ofDocument _ _).facing
  obtain ⟨t, hrun⟩ := Editor.newline_succeeds hcursor 4 Editor.agreeable_harmless hs
  have hresult : (s.document.newline 4).1 = ⟨.bracePair, 4⟩ := by decide +kernel
  have hdocument : t.document = (s.document.newline 4).2 := by
    have halike := Editor.newline_facing hcursor 4 Editor.agreeable_harmless.toOnlooking hs
    rw [Edit.after, hrun] at halike
    exact halike.eq
  rw [hresult] at hrun
  refine ⟨by decide, t, hrun, ?_, ?_⟩
  · rw [hdocument]
    decide +kernel
  · rw [hdocument]
    decide +kernel

end JadeEditor
