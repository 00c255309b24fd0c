import JadeEditor.Proofs.Structure.BraceOrder
import Mathlib.Data.List.Sort

/-!
# Balanced blocks

The search for the end of a block counts how many blocks are open. It stops at a
closing brace exactly if what stands between the two braces is balanced in the sense
of a grammar, which knows of no depth.
-/

namespace JadeEditor

set_option autoImplicit false

open CodeUnit

/-- A word of braces is empty, or a block with a balanced word in it and one behind it. -/
inductive Balanced : List Side → Prop where
  | nil : Balanced []
  | block {inner rest : List Side} : Balanced inner → Balanced rest →
      Balanced (.opening :: inner ++ .closing :: rest)

namespace Brace

theorem closeAfter_opening_cons {b : Brace} (hb : b.side = .opening) (depth : Int)
    (bs : List Brace) : closeAfter depth (b :: bs) = closeAfter (depth + 1) bs := by
  rw [closeAfter, hb]

theorem closeAfter_closing_cons {b : Brace} (hb : b.side = .closing) (depth : Int)
    (bs : List Brace) : closeAfter depth (b :: bs)
      = if depth = 1 then some b.position else closeAfter (depth - 1) bs := by
  rw [closeAfter, hb]

/-- A balanced word does not close a block that was open before it. -/
theorem closeAfter_append {bs : List Brace} (h : Balanced (bs.map side)) {depth : Int}
    (hdepth : 0 < depth) (rest : List Brace) :
    closeAfter depth (bs ++ rest) = closeAfter depth rest := by
  generalize hword : bs.map side = word at h
  induction h generalizing bs depth rest with
  | nil =>
    obtain rfl : bs = [] := List.map_eq_nil_iff.mp hword
    rfl
  | block _ _ ihinner ihrest =>
    obtain ⟨front, back, rfl, hfront, hback⟩ := List.map_eq_append_iff.mp hword
    obtain ⟨o, us, rfl, ho, hus⟩ := List.map_eq_cons_iff.mp hfront
    obtain ⟨c, vs, rfl, hc, hvs⟩ := List.map_eq_cons_iff.mp hback
    have hinner : closeAfter (depth + 1) (us ++ (c :: vs ++ rest))
        = closeAfter (depth + 1) (c :: vs ++ rest) := ihinner (by omega) _ hus
    have hdeep : ¬ depth + 1 = 1 := by omega
    rw [List.append_assoc, List.cons_append, closeAfter_opening_cons ho, hinner, List.cons_append,
      closeAfter_closing_cons hc, if_neg hdeep, Int.add_sub_cancel]
    exact ihrest hdepth rest hvs

/-- If a block that is open is closed, a balanced word leads to a closing brace. -/
theorem exists_closing {bs : List Brace} {depth : Int} (hdepth : 0 < depth) {q : Position}
    (h : closeAfter depth bs = some q) :
    ∃ (word : List Brace) (c : Brace) (rest : List Brace),
      bs = word ++ c :: rest ∧ c.side = .closing ∧ Balanced (word.map side) := by
  -- Behind an opening brace the search is for two closing ones, the second in what is left.
  induction hlength : bs.length using Nat.strongRecOn generalizing bs depth with
  | ind n ih =>
    cases bs with
    | nil => cases h
    | cons b bs =>
      rw [List.length_cons] at hlength
      cases hb : b.side with
      | closing => exact ⟨[], b, bs, rfl, hb, .nil⟩
      | opening =>
        rw [closeAfter_opening_cons hb] at h
        obtain ⟨us, c, more, rfl, hc, hus⟩ := ih bs.length (by omega) (by omega) h rfl
        rw [List.length_append, List.length_cons] at hlength
        have hdeep : ¬ depth + 1 = 1 := by omega
        rw [closeAfter_append hus (by omega), closeAfter_closing_cons hc, if_neg hdeep,
          Int.add_sub_cancel] at h
        obtain ⟨vs, c', rest, rfl, hc', hvs⟩ := ih more.length (by omega) hdepth h rfl
        refine ⟨b :: us ++ c :: vs, c', rest, by simp, hc', ?_⟩
        rw [List.map_append, List.map_cons, List.map_cons, hb, hc]
        exact .block hus hvs

theorem closeAfter_one_iff {bs : List Brace} {q : Position} :
    closeAfter 1 bs = some q ↔ ∃ (word rest : List Brace),
      bs = word ++ ⟨.closing, q⟩ :: rest ∧ Balanced (word.map side) := by
  constructor
  · intro h
    obtain ⟨word, c, rest, rfl, hc, hword⟩ := exists_closing (by decide) h
    rw [closeAfter_append hword (by decide), closeAfter_closing_cons hc, if_pos rfl] at h
    obtain ⟨side, position⟩ := c
    obtain rfl : position = q := Option.some.inj h
    obtain rfl : side = .closing := hc
    exact ⟨word, rest, rfl, hword⟩
  · rintro ⟨word, rest, rfl, hword⟩
    rw [closeAfter_append hword (by decide), closeAfter_closing_cons rfl, if_pos rfl]

end Brace

namespace Document

/-- The two braces of a block and what is between them, in the list of all braces. -/
theorem closing?_iff_split {d : Document} {o q : Position} (ho : d.codeAt? o = some openBrace) :
    d.closing? o = some q ↔ ∃ (earlier word later : List Brace),
      d.braces = earlier ++ ⟨.opening, o⟩ :: word ++ ⟨.closing, q⟩ :: later
        ∧ Balanced (word.map Brace.side) := by
  have hmem : (⟨.opening, o⟩ : Brace) ∈ d.braces := mem_braces_iff.mpr ho
  constructor
  · intro h
    obtain ⟨earlier, rest, hsplit⟩ := List.append_of_mem hmem
    rw [show o = (⟨.opening, o⟩ : Brace).position from rfl, closing?_of_split hsplit,
      Brace.closeAfter_opening_cons rfl] at h
    obtain ⟨word, later, rfl, hword⟩ := Brace.closeAfter_one_iff.mp h
    refine ⟨earlier, word, later, ?_, hword⟩
    rw [hsplit, List.append_assoc, List.cons_append]
  · rintro ⟨earlier, word, later, hsplit, hword⟩
    rw [List.append_assoc, List.cons_append] at hsplit
    rw [show o = (⟨.opening, o⟩ : Brace).position from rfl, closing?_of_split hsplit,
      Brace.closeAfter_opening_cons rfl]
    exact Brace.closeAfter_one_iff.mpr ⟨word, later, rfl, hword⟩

/-- The word lists the braces outside comments that stand strictly between two positions,
in the order of their positions. -/
structure Between (d : Document) (p q : Position) (word : List Brace) : Prop where
  mem : ∀ b, b ∈ word ↔ p < b.position ∧ b.position < q
    ∧ d.codeAt? b.position = some b.side.unit
  order : word.Pairwise fun a b => a.position < b.position

theorem Between.unique {d : Document} {p q : Position} {v w : List Brace} (hv : d.Between p q v)
    (hw : d.Between p q w) : v = w := by
  have hirrefl : Std.Irrefl fun a b : Brace => a.position < b.position :=
    ⟨fun a => Position.lt_irrefl a.position⟩
  have hantisymm : Std.Antisymm fun a b : Brace => a.position < b.position :=
    ⟨fun a b hab hba => absurd (Position.lt_trans hab hba) (Position.lt_irrefl a.position)⟩
  exact hv.order.eq_of_mem_iff hw.order fun b => (hv.mem b).trans (hw.mem b).symm

theorem between_of_split {d : Document} {o c : Brace} {earlier word later : List Brace}
    (h : d.braces = earlier ++ o :: word ++ c :: later) :
    d.Between o.position c.position word := by
  have hopen : d.braces = earlier ++ o :: (word ++ c :: later) := by
    rw [h, List.append_assoc, List.cons_append]
  constructor
  · intro b
    rw [← mem_braces_iff]
    constructor
    · intro hb
      refine ⟨behind_of_split hopen b ?_, before_of_split h b ?_, ?_⟩
      · exact List.mem_append_left _ hb
      · exact List.mem_append_right _ (List.mem_cons_of_mem o hb)
      · rw [hopen]
        exact List.mem_append_right _ (List.mem_cons_of_mem o (List.mem_append_left _ hb))
    · rintro ⟨hob, hbc, hb⟩
      rw [hopen] at hb
      rcases List.mem_append.mp hb with hb | hb
      · exact absurd (before_of_split hopen b hb) (Position.not_lt_of_lt hob)
      rcases List.mem_cons.mp hb with rfl | hb
      · exact absurd hob (Position.lt_irrefl _)
      rcases List.mem_append.mp hb with hb | hb
      · exact hb
      rcases List.mem_cons.mp hb with rfl | hb
      · exact absurd hbc (Position.lt_irrefl _)
      · exact absurd (behind_of_split h b hb) (Position.not_lt_of_lt hbc)
  · have hsorted := d.pairwise_braces
    rw [hopen, List.pairwise_append, List.pairwise_cons, List.pairwise_append] at hsorted
    exact hsorted.2.1.2.1

/-- A block opened at `o` is closed at `q`: outside comments there is a closing brace at `q`,
and what stands between the two is balanced. -/
structure Closes (d : Document) (o q : Position) : Prop where
  brace : d.codeAt? q = some closeBrace
  after : o < q
  balanced : ∃ word, d.Between o q word ∧ Balanced (word.map Brace.side)

theorem closing?_iff_closes {d : Document} {o q : Position} (ho : d.codeAt? o = some openBrace) :
    d.closing? o = some q ↔ d.Closes o q := by
  constructor
  · intro h
    obtain ⟨earlier, word, later, hsplit, hword⟩ := (closing?_iff_split ho).mp h
    have hbefore := before_of_split hsplit
    refine ⟨?_, hbefore ⟨.opening, o⟩ (by simp), word, between_of_split hsplit, hword⟩
    apply mem_braces_iff (b := ⟨.closing, q⟩).mp
    rw [hsplit]
    simp
  · rintro ⟨hq, hoq, word, hbetween, hword⟩
    have hmem : (⟨.opening, o⟩ : Brace) ∈ d.braces := mem_braces_iff.mpr ho
    have hclosing : (⟨.closing, q⟩ : Brace) ∈ d.braces := mem_braces_iff.mpr hq
    obtain ⟨earlier, rest, hsplit⟩ := List.append_of_mem hmem
    -- The closing brace is behind the opening one in the list, as it is in the document.
    have hrest : (⟨.closing, q⟩ : Brace) ∈ rest := by
      rw [hsplit] at hclosing
      rcases List.mem_append.mp hclosing with hearlier | hlater
      · exact absurd (before_of_split hsplit _ hearlier) (Position.not_lt_of_lt hoq)
      · simpa using hlater
    obtain ⟨found, later, rfl⟩ := List.append_of_mem hrest
    rw [← List.cons_append, ← List.append_assoc] at hsplit
    obtain rfl := hbetween.unique (between_of_split hsplit)
    exact (closing?_iff_split ho).mpr ⟨earlier, word, later, hsplit, hword⟩

end Document

/-- From an opening brace outside comments the search gives the end of the block if the
block has one, and nothing if it has none. -/
theorem closing?_finds_end_of_block {d : Document} {o : Position}
    (ho : d.codeAt? o = some openBrace) :
    (∀ q, d.closing? o = some q ↔ d.Closes o q)
      ∧ (d.closing? o = none ↔ ∀ q, ¬ d.Closes o q) := by
  have hfinds : ∀ q, d.closing? o = some q ↔ d.Closes o q := fun q =>
    Document.closing?_iff_closes ho
  refine ⟨hfinds, ?_⟩
  rw [Option.eq_none_iff_forall_ne_some]
  exact forall_congr' fun q => not_congr (hfinds q)

/-- A block that holds another one and braces in comments, and one that is never closed. -/
theorem closing?_finds_end_of_outer_block :
    let d := Document.ofLines [utf16 "fn a() \x7b // \x7d", utf16 "if \x7b // \x7b",
      utf16 "\x7d \x7d", utf16 "\x7b // \x7d"]
    d.Closes ⟨0, 7⟩ ⟨2, 2⟩ ∧ ∀ q, ¬ d.Closes ⟨3, 0⟩ q := by
  intro d
  have hclosed := closing?_finds_end_of_block (d := d) (o := ⟨0, 7⟩) (by decide +kernel)
  have hunclosed := closing?_finds_end_of_block (d := d) (o := ⟨3, 0⟩) (by decide +kernel)
  exact ⟨(hclosed.1 _).mp (by decide +kernel), hunclosed.2.mp (by decide +kernel)⟩

end JadeEditor
