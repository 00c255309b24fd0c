import JadeEditor.Proofs.Indent.BraceStructure
import JadeEditor.Proofs.Structure.BraceOrder
import JadeEditor.Proofs.Text.Lines

/-!
# Aligned blocks

In an orderly document, in which every opening brace ends its line and every closing
brace starts one, the level of a line and the depth counted by the search for the end of
a block move together from line to line. Between the two braces of a block that depth is
positive, so the floor of the level at zero is not reached there, whatever surplus of
closing braces stands above. Hence the two lines of the braces get the same indentation,
and the lines between them at least one unit more.
-/

namespace JadeEditor

set_option autoImplicit false

open CodeUnit

/-! ## Orderly lines -/

namespace Line

/-- No comment, only white space behind an opening brace and only white space in front of
a closing one. -/
structure Orderly (t : Text) : Prop where
  uncommented : Text.has [slash, slash] t = false
  opening : ∀ i < t.length, t[i]? = some openBrace → ∀ c ∈ t.drop (i + 1), c.isSpace
  closing : ∀ i < t.length, t[i]? = some closeBrace → ∀ c ∈ t.take i, c.isSpace

/-- The definition as a test. -/
def isOrderly (t : Text) : Bool :=
  let indices := List.range t.length
  !Text.has [slash, slash] t
    && indices.all (fun i => t[i]? != some openBrace || (t.drop (i + 1)).all isSpace)
    && indices.all fun i => t[i]? != some closeBrace || (t.take i).all isSpace

theorem isOrderly_iff (t : Text) : isOrderly t = true ↔ Orderly t := by
  simp only [isOrderly, Bool.and_eq_true, Bool.not_eq_true', List.all_eq_true, List.mem_range,
    Bool.or_eq_true, bne_iff_ne, ← Decidable.imp_iff_not_or]
  exact ⟨fun h => ⟨h.1.1, h.1.2, h.2⟩, fun h => ⟨⟨h.uncommented, h.opening⟩, h.closing⟩⟩

instance : DecidablePred Orderly := fun t => decidable_of_iff _ (isOrderly_iff t)

theorem Orderly.space_behind {front back : Text} (h : Orderly (front ++ openBrace :: back)) :
    ∀ c ∈ back, c.isSpace := by
  have hback := h.opening front.length (by simp) (by simp)
  simpa using hback

theorem Orderly.space_before {front back : Text} (h : Orderly (front ++ closeBrace :: back)) :
    ∀ c ∈ front, c.isSpace := by
  have hfront := h.closing front.length (by simp) (by simp)
  simpa using hfront

theorem code_of_uncommented {t : Text} (h : Text.has [slash, slash] t = false) : code t = t := by
  induction t with
  | nil => rfl
  | cons c t ih =>
    rw [Bool.eq_false_iff, Ne, Text.has_pair_cons, not_or] at h
    have hrest := ih (Bool.eq_false_iff.mpr h.2)
    cases t with
    | nil => rfl
    | cons d t =>
      have hnot : ¬ (c = slash ∧ d = slash) := fun hslash => h.1 ⟨hslash.1, congrArg some hslash.2⟩
      rw [code, if_neg hnot, hrest]

theorem orderly_cons {c : CodeUnit} (hc : c.isBlank) (t : Text) :
    Orderly (c :: t) ↔ Orderly t := by
  have hcomment : Text.has [slash, slash] (c :: t) = Text.has [slash, slash] t := by
    rw [Bool.eq_iff_iff, Text.has_pair_cons]
    refine or_iff_right fun hslash => ?_
    rw [hslash.1] at hc
    exact absurd hc (by decide)
  constructor
  · intro h
    refine ⟨hcomment ▸ h.uncommented, fun i hi hopen => ?_, fun i hi hclose d hd => ?_⟩
    · exact h.opening (i + 1) (Nat.succ_lt_succ hi) hopen
    · exact h.closing (i + 1) (Nat.succ_lt_succ hi) hclose d (List.mem_cons_of_mem c hd)
  · intro h
    refine ⟨hcomment ▸ h.uncommented, fun i hi hopen => ?_, fun i hi hclose d hd => ?_⟩
    · cases i with
      | zero =>
        obtain rfl : c = openBrace := by simpa using hopen
        exact absurd hc (by decide)
      | succ i => exact h.opening i (Nat.lt_of_succ_lt_succ hi) hopen
    · cases i with
      | zero => cases hd
      | succ i =>
        rcases List.mem_cons.mp hd with rfl | hd
        · exact isSpace_of_isBlank hc
        · exact h.closing i (Nat.lt_of_succ_lt_succ hi) hclose d hd

theorem orderly_append {front : Text} (h : ∀ c ∈ front, c.isBlank) (t : Text) :
    Orderly (front ++ t) ↔ Orderly t := by
  induction front with
  | nil => exact Iff.rfl
  | cons c front ih =>
    rw [List.cons_append, orderly_cons (h c List.mem_cons_self)]
    exact ih fun d hd => h d (List.mem_cons_of_mem c hd)

theorem Orderly.indentTo {t : Text} (h : Orderly t) (n : Nat) : Orderly (indentTo n t) := by
  rw [← margin_append_body t, orderly_append fun c hc => isBlank_of_mem_margin hc] at h
  rw [Line.indentTo, orderly_append fun c hc => isBlank_of_mem_spaces hc]
  exact h

theorem opensBlock_iff_mem {t : Text} (h : Orderly t) : opensBlock t = true ↔ openBrace ∈ t := by
  rw [opensBlock_iff_split]
  constructor
  · rintro ⟨front, back, rfl, -⟩
    simp
  · intro hmem
    obtain ⟨front, back, rfl⟩ := List.append_of_mem hmem
    exact ⟨front, back, rfl, h.space_behind⟩

theorem closesBlock_iff_mem {t : Text} (h : Orderly t) :
    closesBlock t = true ↔ closeBrace ∈ t := by
  rw [closesBlock, beq_iff_eq]
  constructor
  · intro hhead
    exact List.dropWhile_subset _ (List.mem_of_mem_head? hhead)
  · intro hmem
    obtain ⟨front, back, rfl⟩ := List.append_of_mem hmem
    rw [List.dropWhile_append_of_pos h.space_before]
    rfl

end Line

/-! ## The braces of an orderly line -/

namespace Brace

theorem filterMap_side?_eq_nil {t : Text} (hopen : openBrace ∉ t) (hclose : closeBrace ∉ t) :
    t.filterMap side? = [] := by
  rw [List.filterMap_eq_nil_iff]
  intro c hc
  have hopening : c ≠ openBrace := fun heq => hopen (heq ▸ hc)
  have hclosing : c ≠ closeBrace := fun heq => hclose (heq ▸ hc)
  rw [side?, if_neg hopening, if_neg hclosing]

theorem not_mem_of_isSpace {t : Text} (h : ∀ c ∈ t, c.isSpace) :
    openBrace ∉ t ∧ closeBrace ∉ t :=
  ⟨fun hmem => absurd (h _ hmem) (by decide), fun hmem => absurd (h _ hmem) (by decide)⟩

theorem sides_of_opening {t : Text}
    (h : ∀ front back, t = front ++ openBrace :: back → ∀ c ∈ back, c.isSpace)
    (hclose : closeBrace ∉ t) :
    t.filterMap side? = if openBrace ∈ t then [.opening] else [] := by
  split
  · rename_i hopen
    obtain ⟨front, back, rfl⟩ := List.append_of_mem hopen
    have hback := not_mem_of_isSpace (h front back rfl)
    -- A brace in front of this one would have it among the white space behind it.
    have hfront : openBrace ∉ front := by
      intro hmem
      obtain ⟨first, rest, rfl⟩ := List.append_of_mem hmem
      have hspace := h first (rest ++ openBrace :: back) (by simp) openBrace (by simp)
      exact absurd hspace (by decide)
    have hclosed : closeBrace ∉ front := fun hmem => hclose (List.mem_append_left _ hmem)
    rw [List.filterMap_append, filterMap_side?_eq_nil hfront hclosed,
      List.filterMap_cons_some (show side? openBrace = some .opening from rfl),
      filterMap_side?_eq_nil hback.1 hback.2]
    rfl
  · rename_i hopen
    exact filterMap_side?_eq_nil hopen hclose

/-- An orderly line has at most one brace of each kind, the closing one first, and they
are there if it closes or opens a block. -/
theorem sides_of_orderly {t : Text} (h : Line.Orderly t) :
    t.filterMap side? = (if Line.closesBlock t then [.closing] else [])
      ++ if Line.opensBlock t then [.opening] else [] := by
  simp only [Line.opensBlock_iff_mem h, Line.closesBlock_iff_mem h]
  by_cases hclose : closeBrace ∈ t
  · obtain ⟨front, back, rfl⟩ := List.append_of_mem hclose
    have hfront := not_mem_of_isSpace h.space_before
    have hback : closeBrace ∉ back := by
      intro hmem
      obtain ⟨first, rest, rfl⟩ := List.append_of_mem hmem
      rw [← List.cons_append, ← List.append_assoc] at h
      exact absurd (h.space_before closeBrace (by simp)) (by decide)
    have hrest : back.filterMap side? = if openBrace ∈ back then [.opening] else [] := by
      apply sides_of_opening _ hback
      rintro first rest rfl
      rw [← List.cons_append, ← List.append_assoc] at h
      exact h.space_behind
    have hopen : openBrace ∈ front ++ closeBrace :: back ↔ openBrace ∈ back := by
      have hne : openBrace ≠ closeBrace := by decide
      simp [hfront.1, hne]
    rw [if_pos hclose, List.filterMap_append, filterMap_side?_eq_nil hfront.1 hfront.2,
      List.filterMap_cons_some (show side? closeBrace = some .closing from rfl), hrest]
    simp only [hopen]
    rfl
  · rw [if_neg hclose, sides_of_opening (fun front back heq => (heq ▸ h).space_behind) hclose]
    rfl

theorem sides_ofPiece_code {t : Text} (h : Line.Orderly t) (line : Nat) :
    (ofPiece line 0 (Line.code t)).map side = (if Line.closesBlock t then [.closing] else [])
      ++ if Line.opensBlock t then [.opening] else [] := by
  rw [Line.code_of_uncommented h.uncommented, sides_ofPiece, sides_of_orderly h]

theorem closeAfter_opening {bs : List Brace} {opens : Bool}
    (h : bs.map side = if opens then [.opening] else []) (depth : Nat) (rest : List Brace) :
    closeAfter depth (bs ++ rest) = closeAfter (depth + opens.toNat : Nat) rest := by
  cases opens with
  | false =>
    obtain rfl : bs = [] := List.map_eq_nil_iff.mp h
    rfl
  | true =>
    obtain ⟨b, more, rfl, hb, hmore⟩ := List.map_eq_cons_iff.mp h
    obtain rfl : more = [] := List.map_eq_nil_iff.mp hmore
    rw [List.singleton_append, closeAfter, hb]
    rfl

end Brace

/-! ## The lines of a block -/

/-- The line number `j` is indented by `base`, and of the lines before it those that are
not blank by at least one unit more. -/
def EndsBlock (unit base : Nat) (ls : List Text) (j : Nat) : Prop :=
  (∃ l, ls[j]? = some l ∧ Line.indentation l = base)
    ∧ ∀ i < j, ∀ l, ls[i]? = some l → ¬ Line.isBlank l → base + unit ≤ Line.indentation l

theorem EndsBlock.cons {unit base j : Nat} {l : Text} {ls : List Text}
    (hl : Line.isBlank l ∨ base + unit ≤ Line.indentation l) (h : EndsBlock unit base ls j) :
    EndsBlock unit base (l :: ls) (j + 1) := by
  refine ⟨h.1, fun i hi m hm hsolid => ?_⟩
  cases i with
  | zero =>
    obtain rfl : l = m := by simpa using hm
    exact hl.resolve_left hsolid
  | succ i => exact h.2 i (Nat.lt_of_succ_lt_succ hi) m (by simpa using hm) hsolid

/-- The level of the lines below `a` that close no block. -/
def innerLevel (unit : Nat) (a : Text) : Nat :=
  Line.indentation a + unit * (Line.opensBlock a).toNat

/-- As long as the depth is positive, a line that closes a block is at a level of its own. -/
theorem toNat_levelUnder {unit base depth : Nat} {a : Text}
    (ha : innerLevel unit a = base + unit * (depth + 1)) (t : Text) :
    (Document.levelUnder unit (some a) t).toNat
      = base + unit * (depth + 1 - (Line.closesBlock t).toNat) := by
  have hinner : ((if Line.opensBlock a then (Line.indentation a : Int) + unit
      else Line.indentation a) : Int) = (base + unit * (depth + 1) : Nat) := by
    rw [← ha, innerLevel]
    cases Line.opensBlock a <;> simp
  have hmore : unit * (depth + 1) = unit * depth + unit := Nat.mul_succ unit depth
  simp only [Document.levelUnder, hinner]
  cases Line.closesBlock t with
  | false =>
    simp only [Bool.false_eq_true, if_false, Bool.toNat_false, Nat.sub_zero, Int.toNat_natCast]
  | true =>
    simp only [if_true, Bool.toNat_true, Nat.add_sub_cancel]
    omega

theorem innerLevel_indentTo (unit base depth : Nat) (t : Text) :
    innerLevel unit (Line.indentTo (base + unit * depth) t)
      = base + unit * (depth + (Line.opensBlock t).toNat) := by
  rw [innerLevel, Line.indentation_indentTo, Line.opensBlock_indentTo, Nat.mul_add, Nat.add_assoc]

/-! ## Search and layout in step -/

section Step

open Brace

/-- Below a line whose inner level is `base` and one unit for each of `depth + 1` open blocks,
the search for the end of the outermost one ends where the layout does. -/
def InStep (unit base : Nat) (q : Position) (ts : List Text) : Prop :=
  ∀ (depth : Nat) (a : Text) (line : Nat), innerLevel unit a = base + unit * (depth + 1) →
    closeAfter (depth + 1 : Nat) (ofLines line (layout unit (some a) ts)) = some q →
    ∃ j : Nat, q.line = (line + j : Nat) ∧ EndsBlock unit base (layout unit (some a) ts) j

variable {unit base : Nat} {q : Position} {t : Text} {ts : List Text}

/-- What is left of a line behind its closing brace, if the block goes on. -/
theorem InStep.behind (h : InStep unit base q ts) {depth line : Nat} {bs : List Brace}
    (hbs : bs.map side = if Line.opensBlock t then [.opening] else []) :
    let new := Line.indentTo (base + unit * (depth + 1)) t
    closeAfter (depth + 1 : Nat) (bs ++ ofLines (line + 1) (layout unit (some new) ts)) = some q →
    ∃ j : Nat, q.line = (line + j : Nat)
      ∧ EndsBlock unit base (new :: layout unit (some new) ts) j := by
  intro new hclose
  rw [closeAfter_opening hbs, Nat.add_right_comm] at hclose
  have hinner : innerLevel unit new = base + unit * (depth + (Line.opensBlock t).toNat + 1) := by
    rw [innerLevel_indentTo, Nat.add_right_comm]
  obtain ⟨j, hq, hends⟩ := h _ new (line + 1) hinner hclose
  refine ⟨j + 1, hq.trans (by omega), hends.cons (.inr ?_)⟩
  rw [Line.indentation_indentTo, Nat.mul_succ]
  omega

theorem InStep.cons_blank (h : InStep unit base q ts) (ht : Line.Orderly t)
    (hblank : Line.isBlank t = true) : InStep unit base q (t :: ts) := by
  intro depth a line ha hclose
  obtain ⟨hcloses, hopens⟩ := Line.isBlank_shape hblank
  have hsides := sides_ofPiece_code ht line
  rw [hcloses, hopens] at hsides
  rw [layout, if_pos hblank] at hclose ⊢
  rw [ofLines, List.map_eq_nil_iff.mp hsides, List.nil_append] at hclose
  obtain ⟨j, hq, hends⟩ := h depth a (line + 1) ha hclose
  exact ⟨j + 1, hq.trans (by omega), hends.cons (.inl hblank)⟩

theorem InStep.cons_solid (h : InStep unit base q ts) (ht : Line.Orderly t)
    (hsolid : ¬ Line.isBlank t = true) : InStep unit base q (t :: ts) := by
  intro depth a line ha hclose
  rw [layout, if_neg hsolid, toNat_levelUnder ha] at hclose ⊢
  have hsides := sides_ofPiece_code
    (ht.indentTo (base + unit * (depth + 1 - (Line.closesBlock t).toNat))) line
  rw [Line.closesBlock_indentTo, Line.opensBlock_indentTo] at hsides
  rw [ofLines] at hclose
  cases hcloses : Line.closesBlock t with
  | false =>
    rw [hcloses] at hclose hsides
    exact h.behind hsides hclose
  | true =>
    rw [hcloses] at hclose hsides
    obtain ⟨b, bs, hbraces, hb, hbs⟩ := List.map_eq_cons_iff.mp hsides
    have hline : b.position.line = line := line_of_mem_ofPiece (hbraces ▸ List.mem_cons_self)
    rw [hbraces, List.cons_append, closeAfter, hb] at hclose
    -- The brace ends the outermost block, or one inside it.
    cases depth with
    | zero =>
      obtain rfl : b.position = q := by simpa using hclose
      refine ⟨0, hline, ⟨_, rfl, ?_⟩, fun i hi => absurd hi (Nat.not_lt_zero i)⟩
      rw [Line.indentation_indentTo]
      rfl
    | succ depth =>
      have hdeep : ¬ ((depth + 1 + 1 : Nat) : Int) = 1 := by omega
      have hless : ((depth + 1 + 1 : Nat) : Int) - 1 = (depth + 1 : Nat) := by omega
      simp only [if_neg hdeep, hless] at hclose
      exact h.behind hbs hclose

theorem inStep_of_orderly (unit base : Nat) (q : Position) (hts : ∀ t ∈ ts, Line.Orderly t) :
    InStep unit base q ts := by
  induction ts with
  | nil =>
    intro depth a line _ hclose
    cases hclose
  | cons t ts ih =>
    have hstep := ih fun u hu => hts u (List.mem_cons_of_mem t hu)
    have ht := hts t List.mem_cons_self
    by_cases hblank : Line.isBlank t = true
    · exact hstep.cons_blank ht hblank
    · exact hstep.cons_solid ht hblank

end Step

/-- Below a line that is not blank the layout goes on from that line. -/
theorem layout_below {unit : Int} {above : Option Text} {ts : List Text} {front back : List Text}
    {l : Text} (h : layout unit above ts = front ++ l :: back) (hl : ¬ Line.isBlank l = true) :
    back = layout unit (some l) (ts.drop (front.length + 1)) := by
  induction ts generalizing above front with
  | nil => simp [layout] at h
  | cons t ts ih =>
    rw [layout] at h
    cases front with
    | nil =>
      rw [List.nil_append] at h
      split at h
      · rename_i hblank
        obtain ⟨rfl, -⟩ := List.cons.inj h
        exact absurd hblank hl
      · obtain ⟨rfl, rfl⟩ := List.cons.inj h
        rfl
    | cons m front =>
      rw [List.cons_append] at h
      split at h
      · exact ih (List.cons.inj h).2
      · exact ih (List.cons.inj h).2

theorem orderly_layout (unit : Int) (above : Option Text) {ts : List Text}
    (h : ∀ t ∈ ts, Line.Orderly t) : ∀ l ∈ layout unit above ts, Line.Orderly l := by
  induction ts generalizing above with
  | nil => exact h
  | cons t ts ih =>
    have ht := h t List.mem_cons_self
    have hts := fun above => ih above fun u hu => h u (List.mem_cons_of_mem t hu)
    rw [layout]
    split
    · exact List.forall_mem_cons.mpr ⟨ht, hts _⟩
    · exact List.forall_mem_cons.mpr ⟨ht.indentTo _, hts _⟩

/-! ## The search from an opening brace -/

namespace Brace

theorem ofPiece_split (line column : Nat) (front back : Text) :
    ofPiece line column (front ++ back)
      = ofPiece line column front ++ ofPiece line (column + front.length) back := by
  induction front generalizing column with
  | nil => rfl
  | cons c front ih =>
    rw [List.cons_append, ofPiece, ofPiece, ih, List.length_cons, Nat.add_right_comm, Nat.add_assoc]
    cases side? c <;> rfl

/-- From an opening brace that ends its line the search goes on at the next line. -/
theorem closing?_of_last {d : Document} {above below : List Text} {front back : Text}
    (hlines : d.lines = above ++ (front ++ openBrace :: back) :: below)
    (huncommented : Text.has [slash, slash] (front ++ openBrace :: back) = false)
    (hbehind : ∀ c ∈ back, c.isSpace) :
    d.closing? ⟨above.length, front.length⟩
      = closeAfter (1 : Nat) (ofLines (above.length + 1) below) := by
  have hspace := not_mem_of_isSpace hbehind
  have hback : ofPiece above.length (front.length + 1) back = [] := by
    rw [← List.map_eq_nil_iff, sides_ofPiece, filterMap_side?_eq_nil hspace.1 hspace.2]
  have hbraces : d.braces = (ofLines 0 above ++ ofPiece above.length 0 front)
      ++ ⟨.opening, ⟨above.length, front.length⟩⟩ :: ofLines (above.length + 1) below := by
    rw [Document.braces, hlines, ofLines_append, ofLines, Line.code_of_uncommented huncommented,
      ofPiece_split, Nat.zero_add, Nat.zero_add, ofPiece, hback]
    simp [side?]
  rw [Document.closing?_of_split hbraces]
  rfl

end Brace

/-- A unit of a line cuts the document into the lines and texts around it. -/
theorem Document.exists_split {d : Document} {i c : Nat} {unit : CodeUnit}
    (h : (d.lineText i)[c]? = some unit) : ∃ above front back below,
      d.lines = above ++ (front ++ unit :: back) :: below ∧ above.length = i
        ∧ front.length = c := by
  rw [Document.lineText_natCast, List.getD_eq_getElem?_getD] at h
  cases hl : d.lines[i]? with
  | none => simp [hl] at h
  | some l =>
    rw [hl, Option.getD_some] at h
    obtain ⟨hi, rfl⟩ := List.getElem?_eq_some_iff.mp hl
    obtain ⟨hc, rfl⟩ := List.getElem?_eq_some_iff.mp h
    refine ⟨d.lines.take i, d.lines[i].take c, d.lines[i].drop (c + 1), d.lines.drop (i + 1),
      ?_, ?_, ?_⟩
    · simp
    · simp [Nat.le_of_lt hi]
    · simp [Nat.le_of_lt hc]

open Brace in
/-- In laid out lines that are orderly, the braces of a block are aligned and the lines
between them further in. -/
theorem endsBlock_of_closing? {d : Document} {unit : Nat} {ts : List Text}
    (hlines : d.lines = layout unit none ts) (hts : ∀ t ∈ ts, Line.Orderly t) {i c : Nat}
    {q : Position} (hopen : (d.lineText i)[c]? = some openBrace)
    (hclose : d.closing? ⟨i, c⟩ = some q) :
    ∃ j : Nat, q.line = (i + 1 + j : Nat)
      ∧ EndsBlock unit (Line.indentation (d.lineText i)) (d.lines.drop (i + 1)) j := by
  obtain ⟨above, front, back, below, hsplit, rfl, rfl⟩ := Document.exists_split hopen
  have hstart : d.lineText above.length = front ++ openBrace :: back := by
    rw [Document.lineText_natCast, hsplit]
    simp
  rw [hstart]
  have horderly : Line.Orderly (front ++ openBrace :: back) := by
    apply orderly_layout unit none hts
    rw [← hlines, hsplit]
    simp
  have hopens : Line.opensBlock (front ++ openBrace :: back) = true :=
    (Line.opensBlock_iff_mem horderly).mpr (by simp)
  have hsolid := Line.not_isBlank_of_opensBlock hopens
  have hbelow := layout_below (hlines.symm.trans hsplit) hsolid
  have hdrop : d.lines.drop (above.length + 1)
      = layout unit (some (front ++ openBrace :: back)) (ts.drop (above.length + 1)) := by
    rw [← hbelow, hsplit]
    simp
  have hinner : innerLevel unit (front ++ openBrace :: back)
      = Line.indentation (front ++ openBrace :: back) + unit * (0 + 1) := by
    rw [innerLevel, hopens]
    rfl
  rw [closing?_of_last hsplit horderly.uncommented horderly.space_behind, hbelow] at hclose
  rw [hdrop]
  exact inStep_of_orderly unit _ q (fun t ht => hts t (List.mem_of_mem_drop ht)) 0 _ _ hinner hclose

/-! ## Indenting a document -/

/-- Indenting every line of an orderly document aligns its blocks: a closing brace is on a
line as deep as the line of the brace it closes, and what stands on the lines between
them, if anything does, is at least one unit deeper. -/
theorem reindent_aligns_blocks {s : Editor} (hs : s.Facing fun r => !r.writes)
    (horderly : ∀ t ∈ s.document.lines, Line.Orderly t) (unit : Nat) :
    (s.Facing Reaction.peaceful → ∃ r t, Editor.reindent (.lookback unit) s = .ok r t)
      ∧ ∀ (r : Reindented) (t : Editor), Editor.reindent (.lookback unit) s = .ok r t →
        let d := t.document
        ∀ (i c : Nat) (q : Position), (d.lineText i)[c]? = some openBrace →
          d.closing? ⟨i, c⟩ = some q →
          Line.indentation (d.lineText q.line) = Line.indentation (d.lineText i)
            ∧ ∀ k : Nat, i < k → (k : Int) < q.line → ¬ Line.isBlank (d.lineText k) →
              Line.indentation (d.lineText i) + unit ≤ Line.indentation (d.lineText k) := by
  refine ⟨fun hpeaceful => Editor.reindent_succeeds Editor.agreeable_peaceful hpeaceful unit, ?_⟩
  intro r t hrun d i c q hopen hclose
  have hlines := Editor.reindent_lines Editor.onlooking_not_writes hs hrun
  obtain ⟨j, hq, ⟨l, hl, hend⟩, hinside⟩ := endsBlock_of_closing? hlines horderly hopen hclose
  have hbelow : ∀ k m, (d.lines.drop (i + 1))[k]? = some m → d.lineText (i + 1 + k : Nat) = m := by
    intro k m hm
    rw [List.getElem?_drop] at hm
    rw [Document.lineText_natCast, List.getD_eq_getElem?_getD, hm, Option.getD_some]
  constructor
  · rw [hq, hbelow j l hl]
    exact hend
  · intro k hik hkq hsolid
    obtain ⟨m, rfl⟩ := Nat.exists_eq_add_of_le (Nat.succ_le_of_lt hik)
    have hm : m < j := by omega
    obtain ⟨v, hv⟩ : ∃ v, (d.lines.drop (i + 1))[m]? = some v := by
      have hlast := (List.getElem?_eq_some_iff.mp hl).1
      exact ⟨_, List.getElem?_eq_getElem (Nat.lt_trans hm hlast)⟩
    rw [hbelow m v hv] at hsolid ⊢
    exact hinside m hm v hv hsolid

/-- The second of two blocks that share a line, below a closing brace too many. -/
theorem reindent_aligns_second_block :
    let d := Document.ofLines [utf16 "\x7d", utf16 "  if a \x7b", utf16 "b", utf16 "\t\x7d else \x7b",
      utf16 "c", utf16 "    \x7d"]
    let s := (Editor.ofDocument d).subscribe [] .watch
    let e := ((Editor.reindent (.lookback 2)).after s).document
    e.closing? ⟨3, 7⟩ = some ⟨5, 0⟩
      ∧ Line.indentation (e.lineText 5) = Line.indentation (e.lineText 3)
      ∧ Line.indentation (e.lineText 3) + 2 ≤ Line.indentation (e.lineText 4) := by
  intro d s e
  have hs : s.Facing Reaction.peaceful :=
    ((Editor.listening_ofDocument _ _).subscribe _ rfl).facing
  have hs' : s.Facing fun r => !r.writes :=
    ((Editor.listening_ofDocument _ _).subscribe _ rfl).facing
  have horderly : ∀ t ∈ s.document.lines, Line.Orderly t := by decide +kernel
  have hclose : e.closing? ⟨3, 7⟩ = some ⟨5, 0⟩ := by decide +kernel
  have hopen : (e.lineText 3)[7]? = some openBrace := by decide +kernel
  obtain ⟨hruns, haligned⟩ := reindent_aligns_blocks hs' horderly 2
  obtain ⟨r, t, hrun⟩ := hruns hs
  have hend : t.document = e := by
    simp only [e, Edit.after]
    rw [← finalEditor_ok r t, ← hrun]
    rfl
  obtain ⟨halike, hinside⟩ := haligned r t hrun 3 7 ⟨5, 0⟩ (hend ▸ hopen) (hend ▸ hclose)
  rw [hend] at halike hinside
  exact ⟨hclose, halike, hinside 4 (by decide) (by decide) (by decide +kernel)⟩

end JadeEditor
