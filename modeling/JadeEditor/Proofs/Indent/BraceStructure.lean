import JadeEditor.Proofs.Indent.Reindent
import JadeEditor.Structure.Brace

/-!
# Indentation and braces

Indenting a line moves the braces on it by the change of its margin, and all braces
of a line by the same amount. Two documents whose lines have the same bodies thus
have the same braces up to such a move on each line, and the search for the end of a
block, which only looks at the sides of the braces in order, comes out at the moved
place. Indenting a whole document is a case of this.
-/

namespace JadeEditor

set_option autoImplicit false

/-! ## Braces on a line -/

namespace Line

theorem code_margin_append {front : Text} (h : ∀ c ∈ front, c.isBlank) (t : Text) :
    code (front ++ t) = front ++ code t := by
  induction front with
  | nil => rfl
  | cons c front ih =>
    have hc : c ≠ CodeUnit.slash := by
      rintro rfl
      exact absurd (h _ List.mem_cons_self) (by decide)
    have hrest := ih fun d hd => h d (List.mem_cons_of_mem c hd)
    rw [List.cons_append, List.cons_append, ← hrest]
    cases hmore : front ++ t with
    | nil => rfl
    | cons d rest => rw [code, if_neg fun hslash => hc hslash.1]

theorem code_eq (t : Text) : code t = margin t ++ code (body t) := by
  conv_lhs => rw [← margin_append_body t]
  exact code_margin_append (fun c hc => isBlank_of_mem_margin hc) _

end Line

namespace Brace

def move (f : Position → Position) (b : Brace) : Brace := { b with position := f b.position }

theorem side?_of_isBlank {c : CodeUnit} (h : c.isBlank) : side? c = none := by
  simp only [CodeUnit.isBlank, Bool.or_eq_true, beq_iff_eq] at h
  rcases h with rfl | rfl <;> decide

theorem ofPiece_append {front : Text} (h : ∀ c ∈ front, c.isBlank) (line column : Nat)
    (piece : Text) :
    ofPiece line column (front ++ piece) = ofPiece line (column + front.length) piece := by
  induction front generalizing column with
  | nil => rfl
  | cons c front ih =>
    have hc := side?_of_isBlank (h c List.mem_cons_self)
    have hrest := ih (fun d hd => h d (List.mem_cons_of_mem c hd)) (column + 1)
    simp only [List.cons_append, ofPiece, hc, hrest, List.length_cons]
    congr 1
    omega

theorem ofPiece_move {f : Position → Position} (line start stop : Nat)
    (hf : ∀ column, f ⟨line, column⟩ = ⟨line, column + (stop - start)⟩) (piece : Text) :
    ofPiece line stop piece = (ofPiece line start piece).map (move f) := by
  induction piece generalizing start stop with
  | nil => rfl
  | cons c piece ih =>
    have hrest := ih (start + 1) (stop + 1) fun column => by
      rw [hf]
      congr 1
      omega
    simp only [ofPiece, hrest]
    cases side? c with
    | none => rfl
    | some side =>
      simp only [List.map_cons, move, hf]
      congr 3
      omega

theorem closeAfter_map (f : Position → Position) (depth : Int) (bs : List Brace) :
    closeAfter depth (bs.map (move f)) = (closeAfter depth bs).map f := by
  induction bs generalizing depth with
  | nil => rfl
  | cons b bs ih =>
    simp only [List.map_cons, closeAfter, move]
    cases b.side with
    | opening => exact ih _
    | closing =>
      simp only
      split
      · rfl
      · exact ih _

theorem ofPiece_code_move {f : Position → Position} {line : Nat} {t u : Text}
    (hbody : Line.body u = Line.body t)
    (hf : ∀ column, f ⟨line, column⟩
      = ⟨line, column + ((Line.margin u).length - (Line.margin t).length)⟩) :
    ofPiece line 0 (Line.code u) = (ofPiece line 0 (Line.code t)).map (move f) := by
  have hmargin : ∀ t : Text, ofPiece line 0 (Line.code t)
      = ofPiece line (Line.margin t).length (Line.code (Line.body t)) := by
    intro t
    rw [Line.code_eq, ofPiece_append (fun c hc => Line.isBlank_of_mem_margin hc), Nat.zero_add]
  rw [hmargin u, hmargin t, hbody]
  exact ofPiece_move line _ _ hf _

theorem ofLines_move {f : Position → Position} (line : Nat) {ts us : List Text}
    (hbody : us.map Line.body = ts.map Line.body)
    (hf : ∀ (i : Nat) (column : Int), f ⟨(line + i : Nat), column⟩ = ⟨(line + i : Nat),
      column + ((Line.margin (us.getD i [])).length - (Line.margin (ts.getD i [])).length)⟩) :
    ofLines line us = (ofLines line ts).map (move f) := by
  induction ts generalizing us line with
  | nil => rw [List.map_eq_nil_iff.mp hbody]; rfl
  | cons t ts ih =>
    obtain ⟨u, us, rfl, hu, hus⟩ := List.map_eq_cons_iff.mp hbody
    have hfirst : ofPiece line 0 (Line.code u) = (ofPiece line 0 (Line.code t)).map (move f) :=
      ofPiece_code_move hu (hf 0)
    have hrest := ih (line + 1) hus fun i column => by
      have hi := hf (i + 1) column
      rw [show line + (i + 1) = line + 1 + i by omega] at hi
      exact hi
    rw [ofLines, ofLines, List.map_append, hfirst, hrest]

end Brace

/-! ## Documents with the same bodies -/

namespace Document

/-- How much longer the margin of a line is in `e` than in `d`. -/
def marginChange (d e : Document) (line : Int) : Int :=
  (Line.margin (e.lineText line)).length - (Line.margin (d.lineText line)).length

/-- The place in `e` of what stands at `p` in `d`, behind the margin of its line. -/
def carry (d e : Document) (p : Position) : Position :=
  ⟨p.line, p.column + d.marginChange e p.line⟩

theorem carry_le_carry (d e : Document) (p q : Position) :
    d.carry e p ≤ d.carry e q ↔ p ≤ q := by
  simp only [Position.le_iff, carry]
  constructor
  · rintro (hline | ⟨hline, hcolumn⟩)
    · exact .inl hline
    · rw [hline] at hcolumn
      exact .inr ⟨hline, by omega⟩
  · rintro (hline | ⟨hline, hcolumn⟩)
    · exact .inl hline
    · rw [hline]
      exact .inr ⟨rfl, by omega⟩

variable {d e : Document} (h : e.lines.map Line.body = d.lines.map Line.body)
include h

theorem braces_carry : e.braces = d.braces.map (Brace.move (d.carry e)) := by
  apply Brace.ofLines_move 0 h
  intro i column
  simp only [carry, marginChange, Nat.zero_add, lineText_natCast]

theorem closing?_carry (p : Position) :
    e.closing? (d.carry e p) = (d.closing? p).map (d.carry e) := by
  unfold closing?
  rw [braces_carry h, List.filter_map, Brace.closeAfter_map]
  congr 2
  apply List.filter_congr
  intro b _
  simp only [Function.comp_apply, Brace.move, carry_le_carry]

theorem body_lineText (i : Nat) : Line.body (e.lineText i) = Line.body (d.lineText i) := by
  have hbodies := congrArg (·[i]?.getD (Line.body [])) h
  simp only [List.getElem?_map, Option.getD_map] at hbodies
  simpa only [lineText_natCast, List.getD_eq_getElem?_getD] using hbodies

/-- What stands outside comments and is no white space is found at the place carried over. -/
theorem code_carry {i c : Nat} {unit : CodeUnit} (hunit : ¬ unit.isBlank)
    (hc : (Line.code (d.lineText i))[c]? = some unit) :
    ∃ k : Nat, (k : Int) = c + d.marginChange e i ∧ (Line.code (e.lineText i))[k]? = some unit := by
  have hmargin : (Line.margin (d.lineText i)).length ≤ c := by
    by_contra hlt
    rw [Line.code_eq, List.getElem?_append_left (Nat.lt_of_not_le hlt)] at hc
    exact hunit (Line.isBlank_of_mem_margin (List.mem_of_getElem? hc))
  rw [Line.code_eq, List.getElem?_append_right hmargin, ← body_lineText h] at hc
  refine ⟨(Line.margin (e.lineText i)).length + (c - (Line.margin (d.lineText i)).length), ?_, ?_⟩
  · rw [marginChange]
    omega
  · rw [Line.code_eq, List.getElem?_append_right (Nat.le_add_right _ _), Nat.add_sub_cancel_left]
    exact hc

omit h in
theorem map_body_indentLine (d : Document) (level : Rat) :
    (d.indentLine level).lines.map Line.body = d.lines.map Line.body := by
  simp only [indentLine, List.map_set, Line.body_indentTo, currentLine]
  apply List.ext_getElem?
  intro i
  rw [List.getElem?_set]
  split
  · rename_i hi
    subst hi
    simp only [List.length_map, List.getD_eq_getElem?_getD, List.getElem?_map]
    split
    · rename_i hlt
      simp [List.getElem?_eq_getElem hlt]
    · rename_i hge
      simp [List.getElem?_eq_none (Nat.le_of_not_lt hge)]
  · rfl

end Document

/-! ## Indenting a document -/

namespace Editor

/-- Among listeners that do not change the text, the lines keep their bodies. -/
def SameBodies (s t : Editor) : Prop :=
  s.Listening (fun r => !r.writes) → t.Listening (fun r => !r.writes)
    ∧ t.document.lines.map Line.body = s.document.lines.map Line.body

theorem sameBodies_composable : Composable SameBodies where
  refl _ hs := ⟨hs, rfl⟩
  trans hst htu hs := by
    obtain ⟨ht, hbodies⟩ := hst hs
    obtain ⟨hu, hmore⟩ := htu ht
    exact ⟨hu, hmore.trans hbodies⟩

theorem closeGroup_sameBodies : Edit.Keeps SameBodies closeGroup := by
  intro s hs
  unfold Edit.after
  rw [closeGroup_eq]
  split
  · have hflush := flush_announced onlooking_not_writes (s := { s with depth := s.depth - 1 }) hs
    exact ⟨hflush.2, congrArg (List.map Line.body) hflush.1.document.lines⟩
  · exact ⟨hs, rfl⟩

theorem atomic_indentLine_sameBodies (level : Rat) :
    Edit.Keeps SameBodies (atomic (indentLine level)) := by
  intro s
  unfold Edit.after
  rw [atomic_eq, finalEditor_endGroup, indentLine_in_group (Nat.succ_ne_zero _)]
  refine sameBodies_composable.trans ?_ (closeGroup_sameBodies _)
  exact fun hs => ⟨hs, Document.map_body_indentLine s.document level⟩

theorem reindent_sameBodies (indenter : Indenter Failure) :
    Edit.Keeps SameBodies (reindent indenter) :=
  sameBodies_composable.reindent atomic_indentLine_sameBodies (fun _ _ hs => ⟨hs, rfl⟩) indenter

end Editor

/-- Indenting every line keeps the blocks: each opening brace outside comments has moved
with the margin of its line, and so has the brace that closes it, if there is one. -/
theorem reindent_keeps_blocks {s : Editor} (hs : s.Listening fun r => !r.writes) (unit : Int) :
    let d := s.document
    let e := ((Editor.reindent (.lookback unit)).after s).document
    (s.Idle → ∃ r t, Editor.reindent (.lookback unit) s = .ok r t ∧ t.document = e)
      ∧ ∀ i c : Nat, (Line.code (d.lineText i))[c]? = some CodeUnit.openBrace →
        ∃ k : Nat, (k : Int) = c + d.marginChange e i
          ∧ (Line.code (e.lineText i))[k]? = some CodeUnit.openBrace
          ∧ e.closing? ⟨i, k⟩ = (d.closing? ⟨i, c⟩).map (d.carry e) := by
  intro d e
  have hbodies : e.lines.map Line.body = d.lines.map Line.body :=
    (Editor.reindent_sameBodies (.lookback unit) s hs).2
  constructor
  · intro hidle
    obtain ⟨t, hrun, -⟩ := Editor.reindent_lookback unit hidle
    refine ⟨_, t, hrun, ?_⟩
    simp only [e, Edit.after, hrun, finalEditor_ok]
  · intro i c hopen
    obtain ⟨k, hk, hmoved⟩ := Document.code_carry hbodies (by decide) hopen
    refine ⟨k, hk, hmoved, ?_⟩
    rw [hk]
    exact Document.closing?_carry hbodies ⟨i, c⟩

/-- A block that moves to the left, further at its end than at its start. -/
theorem reindent_keeps_shallow_block :
    let s := (Editor.ofDocument (.ofLines [utf16 " \x7b", utf16 "   \x7d"])).subscribe [] .outline
    let e := ((Editor.reindent (.lookback 4)).after s).document
    (Line.code (e.lineText 0))[0]? = some CodeUnit.openBrace
      ∧ e.closing? ⟨0, 0⟩ = some ⟨1, 0⟩ := by
  intro s e
  have hs : s.Listening fun r => !r.writes :=
    ((Editor.listening_ofDocument _ _).subscribe _ rfl)
  obtain ⟨k, hk, hopen, hclosing⟩ := (reindent_keeps_blocks hs 4).2 0 1 rfl
  have hchange : s.document.marginChange e (0 : Nat) = -1 := by decide +kernel
  have hzero : k = 0 := by
    rw [hchange] at hk
    omega
  subst hzero
  refine ⟨hopen, hclosing.trans ?_⟩
  decide +kernel

end JadeEditor
