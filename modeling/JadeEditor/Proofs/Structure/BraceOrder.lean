import JadeEditor.Structure.Brace

/-!
# Where the braces of a document are

The list of braces of a document holds exactly the braces that stand outside its
comments, each once, in the order of their positions. A search along the list can
therefore be read as one along the positions.
-/

namespace JadeEditor

set_option autoImplicit false

open CodeUnit

namespace Position

theorem lt_trans {a b c : Position} (hab : a < b) (hbc : b < c) : a < c := by
  rw [lt_iff] at *
  omega

theorem le_trans {a b c : Position} (hab : a ≤ b) (hbc : b ≤ c) : a ≤ c := by
  rw [le_iff] at *
  omega

theorem le_of_lt {a b : Position} (h : a < b) : a ≤ b := by
  rw [lt_iff] at h
  rw [le_iff]
  omega

theorem le_refl (a : Position) : a ≤ a := (le_iff a a).mpr (.inr ⟨rfl, Int.le_refl _⟩)

theorem not_le {a b : Position} : ¬ a ≤ b ↔ b < a := by
  rw [le_iff, lt_iff]
  omega

theorem lt_irrefl (a : Position) : ¬ a < a := fun h => not_le.mpr h (le_refl a)

theorem not_lt_of_lt {a b : Position} (h : a < b) : ¬ b < a := fun hba =>
  lt_irrefl a (lt_trans h hba)

end Position

/-- The unit that a brace of this side is written with. -/
def Side.unit : Side → CodeUnit
  | opening => openBrace
  | closing => closeBrace

/-- What stands at a position outside comments. -/
def Document.codeAt? (d : Document) (p : Position) : Option CodeUnit :=
  if p.column < 0 then none else (Line.code (d.lineText p.line))[p.column.toNat]?

theorem Document.codeAt?_natCast (d : Document) (line : Int) (column : Nat) :
    d.codeAt? ⟨line, column⟩ = (Line.code (d.lineText line))[column]? :=
  if_neg (Int.not_lt.mpr (Int.natCast_nonneg column))

namespace Brace

theorem side?_eq_some_iff {c : CodeUnit} {side : Side} : side? c = some side ↔ c = side.unit := by
  unfold side?
  split
  · rename_i h
    subst h
    cases side <;> decide
  · rename_i hopen
    split
    · rename_i h
      subst h
      cases side <;> decide
    · rename_i hclose
      cases side with
      | opening => simpa [Side.unit] using hopen
      | closing => simpa [Side.unit] using hclose

theorem sides_ofPiece (line column : Nat) (t : Text) :
    (ofPiece line column t).map side = t.filterMap side? := by
  induction t generalizing column with
  | nil => rfl
  | cons c t ih =>
    rw [ofPiece, List.filterMap_cons]
    cases side? c with
    | none => exact ih _
    | some side => exact congrArg (side :: ·) (ih _)

theorem ofLines_append (line : Nat) (front back : List Text) :
    ofLines line (front ++ back) = ofLines line front ++ ofLines (line + front.length) back := by
  induction front generalizing line with
  | nil => rfl
  | cons t front ih =>
    rw [List.cons_append, ofLines, ofLines, ih, List.append_assoc, List.length_cons,
      Nat.add_right_comm, Nat.add_assoc]

/-! ## Which braces there are -/

theorem mem_ofPiece_iff {line column : Nat} {t : Text} {b : Brace} :
    b ∈ ofPiece line column t ↔
      ∃ k : Nat, b.position = ⟨line, (column + k : Nat)⟩ ∧ t[k]? = some b.side.unit := by
  induction t generalizing column with
  | nil => simp [ofPiece]
  | cons c t ih =>
    rw [ofPiece]
    constructor
    · intro h
      have hrest : b ∈ ofPiece line (column + 1) t →
          ∃ k : Nat, b.position = ⟨line, (column + k : Nat)⟩ ∧ (c :: t)[k]? = some b.side.unit := by
        intro hmem
        obtain ⟨k, hposition, hk⟩ := ih.mp hmem
        refine ⟨k + 1, ?_, hk⟩
        rw [hposition, Nat.add_right_comm, Nat.add_assoc]
      cases hside : side? c with
      | none =>
        rw [hside] at h
        exact hrest h
      | some side =>
        rw [hside] at h
        rcases List.mem_cons.mp h with rfl | h
        · exact ⟨0, rfl, congrArg some (side?_eq_some_iff.mp hside)⟩
        · exact hrest h
    · rintro ⟨k, hposition, hk⟩
      cases k with
      | zero =>
        have hc : c = b.side.unit := by simpa using hk
        rw [side?_eq_some_iff.mpr hc]
        apply List.mem_cons.mpr
        left
        obtain ⟨side, position⟩ := b
        exact congrArg (Brace.mk side) hposition
      | succ k =>
        have hmem : b ∈ ofPiece line (column + 1) t := by
          apply ih.mpr
          refine ⟨k, ?_, hk⟩
          rw [hposition, Nat.add_right_comm, Nat.add_assoc]
        cases side? c with
        | none => exact hmem
        | some side => exact List.mem_cons_of_mem _ hmem

theorem mem_ofLines_iff {line : Nat} {ts : List Text} {b : Brace} :
    b ∈ ofLines line ts ↔ ∃ (i k : Nat) (t : Text), ts[i]? = some t
      ∧ b.position = ⟨(line + i : Nat), k⟩ ∧ (Line.code t)[k]? = some b.side.unit := by
  induction ts generalizing line with
  | nil => simp [ofLines]
  | cons t ts ih =>
    rw [ofLines, List.mem_append, mem_ofPiece_iff, ih]
    constructor
    · rintro (⟨k, hposition, hk⟩ | ⟨i, k, u, hu, hposition, hk⟩)
      · refine ⟨0, k, t, rfl, ?_, hk⟩
        rw [hposition, Nat.zero_add, Nat.add_zero]
      · refine ⟨i + 1, k, u, hu, ?_, hk⟩
        rw [hposition, Nat.add_right_comm, Nat.add_assoc]
    · rintro ⟨i, k, u, hu, hposition, hk⟩
      cases i with
      | zero =>
        obtain rfl : t = u := by simpa using hu
        refine .inl ⟨k, ?_, hk⟩
        rw [hposition, Nat.zero_add, Nat.add_zero]
      | succ i =>
        refine .inr ⟨i, k, u, hu, ?_, hk⟩
        rw [hposition, Nat.add_right_comm, Nat.add_assoc]

theorem line_of_mem_ofPiece {line column : Nat} {t : Text} {b : Brace}
    (h : b ∈ ofPiece line column t) : b.position.line = line := by
  obtain ⟨k, hposition, -⟩ := mem_ofPiece_iff.mp h
  rw [hposition]

theorem column_of_mem_ofPiece {line column : Nat} {t : Text} {b : Brace}
    (h : b ∈ ofPiece line column t) :
    (column : Int) ≤ b.position.column ∧ b.position.column < (column + t.length : Nat) := by
  obtain ⟨k, hposition, hk⟩ := mem_ofPiece_iff.mp h
  have hlt := (List.getElem?_eq_some_iff.mp hk).1
  rw [hposition]
  constructor <;> simp only <;> omega

theorem line_of_mem_ofLines {line : Nat} {ts : List Text} {b : Brace} (h : b ∈ ofLines line ts) :
    (line : Int) ≤ b.position.line ∧ b.position.line < (line + ts.length : Nat) := by
  obtain ⟨i, k, t, ht, hposition, -⟩ := mem_ofLines_iff.mp h
  have hlt := (List.getElem?_eq_some_iff.mp ht).1
  rw [hposition]
  constructor <;> simp only <;> omega

end Brace

theorem Document.mem_braces_iff {d : Document} {b : Brace} :
    b ∈ d.braces ↔ d.codeAt? b.position = some b.side.unit := by
  rw [braces, Brace.mem_ofLines_iff]
  constructor
  · rintro ⟨i, k, t, ht, hposition, hk⟩
    have hnot : ¬ (k : Int) < 0 := by omega
    have hline : ¬ ((0 + i : Nat) : Int) < 0 := by omega
    rw [codeAt?, hposition, if_neg hnot, lineText, if_neg hline, Int.toNat_natCast,
      Int.toNat_natCast, List.getD_eq_getElem?_getD, Nat.zero_add, ht]
    exact hk
  · intro h
    unfold codeAt? lineText at h
    split at h
    · cases h
    · rename_i hcolumn
      split at h
      · simp at h
      · rename_i hline
        rw [List.getD_eq_getElem?_getD] at h
        cases ht : d.lines[b.position.line.toNat]? with
        | none => simp [ht] at h
        | some t =>
          rw [ht, Option.getD_some] at h
          refine ⟨b.position.line.toNat, b.position.column.toNat, t, ht, ?_, h⟩
          obtain ⟨side, line, column⟩ := b
          simp only [Nat.zero_add, Position.mk.injEq] at *
          omega

/-! ## In which order -/

namespace Brace

theorem pairwise_ofPiece (line column : Nat) (t : Text) :
    (ofPiece line column t).Pairwise fun a b => a.position < b.position := by
  induction t generalizing column with
  | nil => exact .nil
  | cons c t ih =>
    rw [ofPiece]
    cases side? c with
    | none => exact ih _
    | some side =>
      refine List.pairwise_cons.mpr ⟨?_, ih _⟩
      intro b hb
      have hline := line_of_mem_ofPiece hb
      have hcolumn := (column_of_mem_ofPiece hb).1
      rw [Position.lt_iff]
      right
      constructor <;> simp only <;> omega

theorem pairwise_ofLines (line : Nat) (ts : List Text) :
    (ofLines line ts).Pairwise fun a b => a.position < b.position := by
  induction ts generalizing line with
  | nil => exact .nil
  | cons t ts ih =>
    refine List.pairwise_append.mpr ⟨pairwise_ofPiece _ _ _, ih _, ?_⟩
    intro a ha b hb
    have hfirst := line_of_mem_ofPiece ha
    have hlater := (line_of_mem_ofLines hb).1
    rw [Position.lt_iff]
    left
    omega

end Brace

namespace Document

theorem pairwise_braces (d : Document) :
    d.braces.Pairwise fun a b => a.position < b.position :=
  Brace.pairwise_ofLines 0 d.lines

/-! ## Searching from a place in the list -/

section Split

variable {d : Document} {earlier later : List Brace} {b : Brace}
  (h : d.braces = earlier ++ b :: later)
include h

theorem before_of_split : ∀ a ∈ earlier, a.position < b.position := by
  have hsorted := d.pairwise_braces
  rw [h, List.pairwise_append] at hsorted
  intro a ha
  exact hsorted.2.2 a ha b List.mem_cons_self

theorem behind_of_split : ∀ c ∈ later, b.position < c.position := by
  have hsorted := d.pairwise_braces
  rw [h, List.pairwise_append, List.pairwise_cons] at hsorted
  exact hsorted.2.1.1

theorem filter_le_of_split : (d.braces.filter fun c => b.position ≤ c.position) = b :: later := by
  have hbefore : ∀ a ∈ earlier, ¬ b.position ≤ a.position := fun a ha =>
    Position.not_le.mpr (before_of_split h a ha)
  have hbehind : ∀ c ∈ later, b.position ≤ c.position := fun c hc =>
    Position.le_of_lt (behind_of_split h c hc)
  rw [h, List.filter_append, List.filter_eq_nil_iff.mpr (by simpa using hbefore), List.nil_append,
    List.filter_cons_of_pos (by simpa using Position.le_refl _),
    List.filter_eq_self.mpr (by simpa using hbehind)]

theorem closing?_of_split : d.closing? b.position = Brace.closeAfter 0 (b :: later) := by
  rw [closing?, filter_le_of_split h]

theorem nextOpening?_of_split {p : Position} (hside : b.side = .opening) (hp : p ≤ b.position)
    (hearlier : ∀ a ∈ earlier, a.side = .opening → a.position < p) :
    d.nextOpening? p = some b.position := by
  have hnone : earlier.find? (fun c => c.side = .opening ∧ p ≤ c.position) = none := by
    rw [List.find?_eq_none]
    intro a ha
    have hbefore := fun hopening => Position.not_le.mpr (hearlier a ha hopening)
    simpa using hbefore
  rw [nextOpening?, h, List.find?_append, hnone, Option.none_or, List.find?_cons_of_pos]
  · rfl
  · simpa using ⟨hside, hp⟩

end Split

theorem nextOpening?_eq_none {d : Document} {p : Position}
    (h : ∀ b ∈ d.braces, b.side = .opening → b.position < p) : d.nextOpening? p = none := by
  rw [nextOpening?, Option.map_eq_none_iff, List.find?_eq_none]
  intro b hb
  have hbefore := fun hopening => Position.not_le.mpr (h b hb hopening)
  simpa using hbefore

end Document

end JadeEditor
