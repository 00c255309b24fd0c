import JadeEditor.Proofs.Buffer.Caret
import JadeEditor.Proofs.Indent.Layout
import Mathlib.Data.Set.Function

/-!
# Offsets and positions

Every place in a document is a line with a column that is not behind its end, and its
offset is what the lines above take up plus that column. The end of a line, the break
behind it and the start of the next line are three neighbouring places of the text and
two positions, so nothing is passed over and nothing is met twice.
-/

namespace JadeEditor

set_option autoImplicit false

open CodeUnit

namespace Text

/-! ## What lines take up -/

theorem extent_append (front back : List Text) :
    extent (front ++ back) = extent front + extent back := by
  simp only [extent_eq_length, List.flatMap_append, List.length_append]

theorem extent_take_le (ls : List Text) {i j : Nat} (h : i ≤ j) :
    extent (ls.take i) ≤ extent (ls.take j) := by
  obtain ⟨k, rfl⟩ := Nat.exists_eq_add_of_le h
  rw [List.take_add, extent_append]
  omega

theorem extent_take_succ {ls : List Text} {i : Nat} {l : Text} (h : ls[i]? = some l) :
    extent (ls.take (i + 1)) = extent (ls.take i) + l.length + 1 := by
  rw [List.take_add_one, h, extent_append]
  simp only [Option.toList_some, extent]
  omega

/-- The ends of lines, each with the break behind it, leave no gap. -/
theorem exists_place {ls : List Text} {k : Nat} (h : k < extent ls) :
    ∃ (i column : Nat) (l : Text), ls[i]? = some l ∧ column ≤ l.length
      ∧ extent (ls.take i) + column = k := by
  induction ls generalizing k with
  | nil => exact absurd h (Nat.not_lt_zero k)
  | cons l ls ih =>
    rw [extent] at h
    rcases Nat.lt_or_ge l.length k with hbehind | hhere
    · obtain ⟨i, column, m, hm, hcolumn, hk⟩ := ih (k := k - (l.length + 1)) (by omega)
      refine ⟨i + 1, column, m, hm, hcolumn, ?_⟩
      rw [List.take_succ_cons, extent]
      omega
    · refine ⟨0, k, l, rfl, hhere, ?_⟩
      rw [List.take_zero, extent, Nat.zero_add]

/-! ## The joined lines -/

theorem length_unlines_lf {ls : List Text} (h : ls ≠ []) :
    (unlines .lf ls).length + 1 = extent ls := by
  obtain ⟨above, l, rfl⟩ := List.eq_nil_or_concat ls |>.resolve_left h
  rw [List.concat_eq_append, unlines_lf, extent_append, extent_eq_length above]
  simp only [extent, List.flatMap_nil, List.append_nil, List.length_append]
  omega

/-- From a place on a line on, the text is the rest of the line and the lines below. -/
theorem getElem?_unlines_lf {ls : List Text} {i : Nat} {l : Text} (h : ls[i]? = some l)
    (column : Nat) : (unlines .lf ls)[extent (ls.take i) + column]?
      = (l ++ (ls.drop (i + 1)).flatMap (lineFeed :: ·))[column]? := by
  obtain ⟨hi, hl⟩ := List.getElem?_eq_some_iff.mp h
  have hcut : ls = ls.take i ++ l :: ls.drop (i + 1) := by
    rw [← hl, List.getElem_cons_drop, List.take_append_drop]
  have hjoined := unlines_lf (ls.take i) l (ls.drop (i + 1))
  rw [← hcut] at hjoined
  rw [hjoined, extent_eq_length, List.getElem?_append_right (Nat.le_add_right _ _),
    Nat.add_sub_cancel_left]

end Text

namespace Document

variable {d : Document}

theorem lineText_of_getElem? {i : Nat} {l : Text} (h : d.lines[i]? = some l) :
    d.lineText i = l := by
  rw [lineText_natCast, List.getD_eq_getElem?_getD, h, Option.getD_some]

/-- A line that is not empty is one of the document. -/
theorem exists_of_lineText_ne_nil {line : Int} (h : d.lineText line ≠ []) :
    ∃ i : Nat, line = i ∧ d.lines[i]? = some (d.lineText line) := by
  rw [lineText] at h
  split at h
  · exact absurd rfl h
  · rename_i hline
    obtain ⟨i, rfl⟩ := Int.eq_ofNat_of_zero_le (Int.not_lt.mp hline)
    refine ⟨i, rfl, ?_⟩
    rw [Int.toNat_natCast, List.getD_eq_getElem?_getD] at h
    rw [lineText_natCast, List.getD_eq_getElem?_getD]
    cases hl : d.lines[i]? with
    | some l => rfl
    | none =>
      rw [hl] at h
      exact absurd rfl h

theorem contains_iff {p : Position} : d.Contains p ↔
    ∃ (i column : Nat) (l : Text), d.lines[i]? = some l ∧ column ≤ l.length
      ∧ p = ⟨i, column⟩ := by
  obtain ⟨line, column⟩ := p
  simp only [Contains, Position.mk.injEq]
  constructor
  · rintro ⟨hline, hlast, hcolumn, hend⟩
    obtain ⟨i, rfl⟩ := Int.eq_ofNat_of_zero_le hline
    obtain ⟨k, rfl⟩ := Int.eq_ofNat_of_zero_le hcolumn
    have hl := List.getElem?_eq_getElem (Int.ofNat_lt.mp hlast)
    rw [lineText_of_getElem? hl] at hend
    exact ⟨i, k, _, hl, Int.ofNat_le.mp hend, rfl, rfl⟩
  · rintro ⟨i, k, l, hl, hk, rfl, rfl⟩
    have hi := (List.getElem?_eq_some_iff.mp hl).1
    rw [lineText_of_getElem? hl]
    omega

theorem offset_natCast (i column : Nat) :
    d.offset ⟨i, column⟩ = (Text.extent (d.lines.take i) + column : Nat) := rfl

/-! ## The order of positions -/

theorem offset_lt_offset {a b : Position} (ha : d.Contains a) (hb : d.Contains b) (h : a < b) :
    d.offset a < d.offset b := by
  obtain ⟨i, column, l, hl, hcolumn, rfl⟩ := contains_iff.mp ha
  obtain ⟨j, column', -, -, -, rfl⟩ := contains_iff.mp hb
  rw [offset_natCast, offset_natCast]
  rcases (Position.lt_iff _ _).mp h with hline | ⟨hline, hsame⟩
  · have hbelow : i + 1 ≤ j := by
      simp only at hline
      omega
    have habove := Text.extent_take_le d.lines hbelow
    rw [Text.extent_take_succ hl] at habove
    omega
  · obtain rfl : i = j := Int.ofNat_inj.mp hline
    simp only at hsame
    omega

theorem sign_difference {a b : Position} (ha : d.Contains a) (hb : d.Contains b) :
    (a.difference b).sign = (d.offset a - d.offset b).sign := by
  rcases Position.lt_or_eq_or_lt a b with h | rfl | h
  · have hoffset := offset_lt_offset ha hb h
    rw [Int.sign_eq_neg_one_of_neg ((Position.lt_def a b).mp h),
      Int.sign_eq_neg_one_of_neg (by omega)]
  · rw [Int.sub_self, Position.difference, if_neg (not_not_intro rfl), Int.sub_self]
  · have hoffset := offset_lt_offset hb ha h
    rw [Int.sign_eq_one_of_pos (Position.difference_pos.mpr h),
      Int.sign_eq_one_of_pos (by omega)]

/-! ## Offsets are the places of the text -/

theorem offset_mapsTo :
    Set.MapsTo d.offset {p | d.Contains p} {n : Int | 0 ≤ n ∧ n ≤ (d.text .lf).length} := by
  intro p hp
  obtain ⟨i, column, l, hl, hcolumn, rfl⟩ := contains_iff.mp hp
  have hi := (List.getElem?_eq_some_iff.mp hl).1
  have hlines : d.lines ≠ [] := List.ne_nil_of_length_pos (Nat.zero_lt_of_lt hi)
  have htext : (d.text .lf).length + 1 = Text.extent d.lines := Text.length_unlines_lf hlines
  have htake := Text.extent_take_le d.lines (show i + 1 ≤ d.lines.length from hi)
  rw [Text.extent_take_succ hl, List.take_length] at htake
  rw [offset_natCast]
  constructor
  · exact Int.natCast_nonneg _
  · exact Int.ofNat_le.mpr (by omega)

theorem offset_injOn : Set.InjOn d.offset {p | d.Contains p} := by
  intro a ha b hb hsame
  rcases Position.lt_or_eq_or_lt a b with h | h | h
  · exact absurd hsame (Int.ne_of_lt (offset_lt_offset ha hb h))
  · exact h
  · exact absurd hsame (Int.ne_of_gt (offset_lt_offset hb ha h))

theorem offset_surjOn (hlines : d.lines ≠ []) :
    Set.SurjOn d.offset {p | d.Contains p} {n : Int | 0 ≤ n ∧ n ≤ (d.text .lf).length} := by
  rintro n ⟨hlow, hhigh⟩
  obtain ⟨k, rfl⟩ := Int.eq_ofNat_of_zero_le hlow
  have htext : (d.text .lf).length + 1 = Text.extent d.lines := Text.length_unlines_lf hlines
  have hplace : k < Text.extent d.lines := by omega
  obtain ⟨i, column, l, hl, hcolumn, hk⟩ := Text.exists_place hplace
  refine ⟨⟨i, column⟩, contains_iff.mpr ⟨i, column, l, hl, hcolumn, rfl⟩, ?_⟩
  rw [offset_natCast, hk]

theorem unit_at_offset {i column : Nat} {l : Text} (hl : d.lines[i]? = some l) :
    (d.text .lf)[(d.offset ⟨i, column⟩).toNat]?
      = (l ++ (d.lines.drop (i + 1)).flatMap (lineFeed :: ·))[column]? := by
  rw [offset_natCast, Int.toNat_natCast]
  exact Text.getElem?_unlines_lf hl column

theorem lineFeed_behind {i : Nat} {l : Text} (hl : d.lines[i]? = some l)
    (hmore : i + 1 < d.lines.length) :
    (d.text .lf)[(d.offset ⟨i, l.length⟩).toNat]? = some lineFeed := by
  rw [unit_at_offset hl, List.drop_eq_getElem_cons hmore, List.flatMap_cons,
    List.getElem?_append_right (Nat.le_refl _), Nat.sub_self]
  rfl

end Document

/-- The positions of a document that has a line are the places of its text, in the same
order: each offset up to the length of the text is that of one position. The unit at the
offset of a position is the one behind that position on its line, and at the end of a line
that is not the last one it is the line feed. -/
theorem offset_is_order_isomorphism {d : Document} (hlines : d.lines ≠ []) :
    Set.BijOn d.offset {p | d.Contains p} {n : Int | 0 ≤ n ∧ n ≤ (d.text .lf).length}
      ∧ (∀ a b, d.Contains a → d.Contains b →
        (a.difference b).sign = (d.offset a - d.offset b).sign)
      ∧ ∀ p, d.Contains p →
        (p.column < (d.lineText p.line).length →
          ∃ c, (d.lineText p.line)[p.column.toNat]? = some c
            ∧ (d.text .lf)[(d.offset p).toNat]? = some c)
        ∧ (p.column = (d.lineText p.line).length → p.line + 1 < d.lines.length →
          (d.text .lf)[(d.offset p).toNat]? = some lineFeed) := by
  refine ⟨⟨Document.offset_mapsTo, Document.offset_injOn, Document.offset_surjOn hlines⟩,
    fun a b ha hb => Document.sign_difference ha hb, ?_⟩
  intro p hp
  obtain ⟨i, column, l, hl, hcolumn, rfl⟩ := Document.contains_iff.mp hp
  rw [Document.lineText_of_getElem? hl]
  constructor
  · intro hinside
    have hlt : column < l.length := Int.ofNat_lt.mp hinside
    refine ⟨l[column], List.getElem?_eq_getElem hlt, ?_⟩
    rw [Document.unit_at_offset hl, List.getElem?_append_left hlt, List.getElem?_eq_getElem hlt]
  · intro hend hmore
    obtain rfl : column = l.length := Int.ofNat_inj.mp hend
    exact Document.lineFeed_behind hl (by exact Int.ofNat_lt.mp hmore)

/-- An empty line between a line with a surrogate pair and one with a carriage return. -/
theorem offset_of_empty_line :
    let d := Document.ofLines [utf16 "a😀", [], utf16 "b\r"]
    (∃ p, d.Contains p ∧ d.offset p = 7)
      ∧ ((⟨1, 0⟩ : Position).difference ⟨0, 3⟩).sign = (d.offset ⟨1, 0⟩ - d.offset ⟨0, 3⟩).sign
      ∧ (d.text .lf)[(d.offset ⟨1, 0⟩).toNat]? = some lineFeed := by
  intro d
  obtain ⟨hbijection, hsign, hunit⟩ :=
    offset_is_order_isomorphism (d := d) (List.cons_ne_nil _ _)
  have hend : d.Contains ⟨0, 3⟩ := ⟨by decide, by decide, by decide, by decide⟩
  have hempty : d.Contains ⟨1, 0⟩ := ⟨by decide, by decide, by decide, by decide⟩
  refine ⟨?_, hsign _ _ hempty hend, (hunit _ hempty).2 (by decide) (by decide)⟩
  exact hbijection.surjOn (by decide)

end JadeEditor
