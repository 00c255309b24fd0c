import JadeEditor.Proofs.Buffer.OffsetOrder
import JadeEditor.Proofs.Line.Comment
import JadeEditor.Proofs.Structure.BraceOrder
import Mathlib.Order.Bounds.Defs

/-!
# The next opening brace

The next opening brace is looked for along the list of all braces. What is found is the least
of the positions at or behind the given one where a block is opened outside comments, and the
given position may be anywhere, also outside the document. Going down the lines finds the same
brace: the column counts in the line of the position only, and the search begins with the first
line if the position is above it.
-/

namespace JadeEditor

set_option autoImplicit false

open CodeUnit

/-! ## Where blocks are opened -/

namespace Document

variable {d : Document} {p q : Position}

theorem contains_of_codeAt? {c : CodeUnit} (h : d.codeAt? p = some c) : d.Contains p := by
  unfold codeAt? at h
  split at h
  · cases h
  · rename_i hcolumn
    have hinside := (List.getElem?_eq_some_iff.mp h).1
    have hlength := Line.length_code_le_length (d.lineText p.line)
    have hne : d.lineText p.line ≠ [] := by
      intro hempty
      rw [hempty] at hinside
      exact Nat.not_lt_zero _ hinside
    obtain ⟨i, hline, hl⟩ := exists_of_lineText_ne_nil hne
    have hi := (List.getElem?_eq_some_iff.mp hl).1
    refine ⟨?_, ?_, ?_, ?_⟩ <;> omega

/-- The position is one of the document, an opening brace stands at it, and no comment holds
that brace. -/
structure OpensAt (d : Document) (q : Position) : Prop where
  inside : d.Contains q
  brace : (d.lineText q.line)[q.column.toNat]? = some openBrace
  uncommented : q.column < (Line.code (d.lineText q.line)).length

theorem opensAt_iff_codeAt? : d.OpensAt q ↔ d.codeAt? q = some openBrace := by
  constructor
  · rintro ⟨⟨-, -, hcolumn, -⟩, hbrace, huncommented⟩
    rw [codeAt?, if_neg (Int.not_lt.mpr hcolumn), Line.getElem?_code (by omega), hbrace]
  · intro h
    have hinside := contains_of_codeAt? h
    have hcolumn : 0 ≤ q.column := hinside.2.2.1
    rw [codeAt?, if_neg (Int.not_lt.mpr hcolumn)] at h
    have hcode := (List.getElem?_eq_some_iff.mp h).1
    refine ⟨hinside, ?_, by omega⟩
    rwa [← Line.getElem?_code hcode]

theorem opensAt_iff_mem : d.OpensAt q ↔ (⟨.opening, q⟩ : Brace) ∈ d.braces :=
  opensAt_iff_codeAt?.trans (mem_braces_iff (b := ⟨.opening, q⟩)).symm

/-! ## Along the braces -/

theorem nextOpening?_eq_some_iff :
    d.nextOpening? p = some q ↔ IsLeast {o | d.OpensAt o ∧ p ≤ o} q := by
  constructor
  · intro h
    obtain ⟨⟨side, q⟩, hfound, rfl⟩ := Option.map_eq_some_iff.mp h
    obtain ⟨hopening, earlier, later, hsplit, hearlier⟩ := List.find?_eq_some_iff_append.mp hfound
    obtain ⟨rfl, hpq⟩ : side = .opening ∧ p ≤ q := by simpa using hopening
    refine ⟨⟨opensAt_iff_mem.mpr ?_, hpq⟩, ?_⟩
    · rw [hsplit]
      exact List.mem_append_right _ List.mem_cons_self
    · rintro o ⟨ho, hpo⟩
      have hmem := opensAt_iff_mem.mp ho
      rw [hsplit] at hmem
      rcases List.mem_append.mp hmem with hmem | hmem
      · have hpassed := hearlier _ hmem
        simp [hpo] at hpassed
      rcases List.mem_cons.mp hmem with heq | hmem
      · obtain rfl : o = q := congrArg Brace.position heq
        exact Position.le_refl o
      · exact Position.le_of_lt (behind_of_split hsplit _ hmem)
  · rintro ⟨⟨hq, hpq⟩, hleast⟩
    obtain ⟨earlier, later, hsplit⟩ := List.append_of_mem (opensAt_iff_mem.mp hq)
    apply nextOpening?_of_split hsplit rfl hpq
    rintro ⟨side, o⟩ hmem rfl
    apply Position.not_le.mp
    intro hpo
    have ho : d.OpensAt o := by
      rw [opensAt_iff_mem, hsplit]
      exact List.mem_append_left _ hmem
    exact Position.not_le.mpr (before_of_split hsplit _ hmem) (hleast ⟨ho, hpo⟩)

theorem nextOpening?_eq_none_iff :
    d.nextOpening? p = none ↔ ¬ ∃ o, d.OpensAt o ∧ p ≤ o := by
  constructor
  · rintro h ⟨o, ho, hpo⟩
    rw [nextOpening?, Option.map_eq_none_iff, List.find?_eq_none] at h
    exact h _ (opensAt_iff_mem.mp ho) (by simpa using hpo)
  · intro h
    apply nextOpening?_eq_none
    rintro ⟨side, o⟩ hmem rfl
    exact Position.not_le.mp fun hpo => h ⟨o, opensAt_iff_mem.mpr hmem, hpo⟩

end Document

/-! ## Line by line -/

namespace Position

/-- The column that a search from the position begins with in a line. -/
def startColumn (p : Position) (line : Nat) : Nat :=
  if line = p.line then p.column.toNat else 0

/-- In the line of a position and in those below it, what is at or behind the position is what
is at or behind the column that a search begins with. -/
theorem le_iff_startColumn_le {p : Position} {line : Nat} (h : p.line ≤ line) (column : Nat) :
    p ≤ ⟨line, column⟩ ↔ p.startColumn line ≤ column := by
  rw [le_iff, startColumn]
  simp only
  split <;> omega

end Position

/-- The first opening brace in the code of a line, from the column `start` on. -/
def Line.openingFrom? (start : Nat) (t : Text) : Option Nat :=
  (((code t).drop start).idxOf? openBrace).map (start + ·)

namespace Brace

/-- Goes down the lines, of which the first has number `line`. -/
def searchLines (p : Position) (line : Nat) : List Text → Option Position
  | [] => none
  | t :: ts =>
    match Line.openingFrom? (p.startColumn line) t with
    | some column => some ⟨line, column⟩
    | none => searchLines p (line + 1) ts

section Search

variable {p : Position} {line column : Nat}

theorem find?_ofPiece_of_open {t : Text} (h : p ≤ ⟨line, column⟩) :
    ((ofPiece line column (openBrace :: t)).find? fun b => b.side = .opening ∧ p ≤ b.position)
      = some ⟨.opening, ⟨line, column⟩⟩ :=
  List.find?_cons_of_pos (by simpa using h)

theorem find?_ofPiece_of_pass {c : CodeUnit} {t : Text}
    (h : c = openBrace → ¬ p ≤ ⟨line, column⟩) :
    ((ofPiece line column (c :: t)).find? fun b => b.side = .opening ∧ p ≤ b.position)
      = (ofPiece line (column + 1) t).find? fun b => b.side = .opening ∧ p ≤ b.position := by
  rw [ofPiece]
  cases hside : side? c with
  | none => rfl
  | some side =>
    apply List.find?_cons_of_neg
    obtain rfl := side?_eq_some_iff.mp hside
    cases side with
    | opening => simpa using h rfl
    | closing => simp

/-- In a piece of a line the search along the braces passes over the units in front of the
position. -/
theorem find?_ofPiece {skip : Nat} (h : ∀ k : Nat, p ≤ ⟨line, (column + k : Nat)⟩ ↔ skip ≤ k)
    (t : Text) :
    ((ofPiece line column t).find? fun b => b.side = .opening ∧ p ≤ b.position).map position
      = ((t.drop skip).idxOf? openBrace).map fun k => ⟨line, (column + (skip + k) : Nat)⟩ := by
  -- With each unit the column goes up by one and what is still to be skipped down by one.
  induction t generalizing column skip with
  | nil => simp [ofPiece]
  | cons c t ih =>
    have hnext : ∀ k : Nat, column + 1 + k = column + (k + 1) := fun k => by omega
    cases skip with
    | zero =>
      have hbehind : ∀ k : Nat, p ≤ ⟨line, (column + 1 + k : Nat)⟩ ↔ 0 ≤ k := by
        intro k
        rw [hnext, h]
        omega
      have hrest := ih hbehind
      rw [List.drop_zero] at hrest ⊢
      rw [List.idxOf?_cons]
      by_cases hopen : c = openBrace
      · subst hopen
        have hp : p ≤ ⟨line, column⟩ := (h 0).mpr (Nat.le_refl 0)
        rw [find?_ofPiece_of_open hp, if_pos (beq_self_eq_true _)]
        rfl
      · rw [find?_ofPiece_of_pass fun hc => absurd hc hopen, hrest, if_neg (by simpa using hopen),
          Option.map_map]
        simp only [hnext]
        rfl
    | succ skip =>
      have hbehind : ∀ k : Nat, p ≤ ⟨line, (column + 1 + k : Nat)⟩ ↔ skip ≤ k := by
        intro k
        rw [hnext, h]
        omega
      have hpass : ¬ p ≤ ⟨line, column⟩ := fun hp => absurd ((h 0).mp hp) (Nat.not_succ_le_zero _)
      rw [find?_ofPiece_of_pass fun _ => hpass, ih hbehind, List.drop_succ_cons]
      simp only [hnext, Nat.add_right_comm]

theorem find?_line (hline : p.line ≤ line) (t : Text) :
    ((ofPiece line 0 (Line.code t)).find? fun b => b.side = .opening ∧ p ≤ b.position).map position
      = (Line.openingFrom? (p.startColumn line) t).map fun column => ⟨line, column⟩ := by
  have hskip : ∀ k : Nat, p ≤ ⟨line, (0 + k : Nat)⟩ ↔ p.startColumn line ≤ k := by
    intro k
    rw [Nat.zero_add]
    exact Position.le_iff_startColumn_le hline k
  rw [find?_ofPiece hskip, Line.openingFrom?, Option.map_map]
  simp only [Nat.zero_add]
  rfl

theorem searchLines_eq_find? (hline : p.line ≤ line) (ts : List Text) :
    searchLines p line ts
      = ((ofLines line ts).find? fun b => b.side = .opening ∧ p ≤ b.position).map position := by
  induction ts generalizing line with
  | nil => rfl
  | cons t ts ih =>
    have hfirst := find?_line hline t
    have hlater : p.line ≤ (line + 1 : Nat) := by omega
    have hbelow := ih hlater
    rw [ofLines, List.find?_append, Option.map_or, hfirst, ← hbelow, searchLines]
    cases Line.openingFrom? (p.startColumn line) t <;> rfl

end Search

end Brace

namespace Document

/-- The search that goes down the lines, from the one of the position on or from the first. -/
def searchOpening? (d : Document) (p : Position) : Option Position :=
  Brace.searchLines p p.line.toNat (d.lines.drop p.line.toNat)

theorem braces_eq_append (d : Document) (n : Nat) :
    d.braces = Brace.ofLines 0 (d.lines.take n) ++ Brace.ofLines n (d.lines.drop n) := by
  rcases Nat.le_total n d.lines.length with hn | hn
  · have happend := Brace.ofLines_append 0 (d.lines.take n) (d.lines.drop n)
    rwa [List.take_append_drop, List.length_take, Nat.min_eq_left hn, Nat.zero_add] at happend
  · rw [List.take_of_length_le hn, List.drop_eq_nil_of_le hn, Brace.ofLines, List.append_nil]
    rfl

theorem nextOpening?_eq_searchOpening? (d : Document) (p : Position) :
    d.nextOpening? p = d.searchOpening? p := by
  have habove : (Brace.ofLines 0 (d.lines.take p.line.toNat)).find?
      (fun b => b.side = .opening ∧ p ≤ b.position) = none := by
    rw [List.find?_eq_none]
    intro b hb
    obtain ⟨hfirst, hlast⟩ := Brace.line_of_mem_ofLines hb
    rw [List.length_take] at hlast
    have hpassed : ¬ p ≤ b.position := by
      rw [Position.le_iff]
      omega
    simp [hpassed]
  rw [nextOpening?, d.braces_eq_append p.line.toNat, List.find?_append, habove, Option.none_or,
    searchOpening?, Brace.searchLines_eq_find? (by omega)]

end Document

/-- The next opening brace from a position on is the least position at or behind it where an
opening brace stands outside comments, and there is none exactly if there is no such position.
A search down the lines, to which the column matters in the line of the position alone, finds
the same. -/
theorem nextOpening?_finds_least (d : Document) (p : Position) :
    (∀ q, d.nextOpening? p = some q ↔ IsLeast {o | d.OpensAt o ∧ p ≤ o} q)
      ∧ (d.nextOpening? p = none ↔ ¬ ∃ o, d.OpensAt o ∧ p ≤ o)
      ∧ d.nextOpening? p = d.searchOpening? p :=
  ⟨fun _ => Document.nextOpening?_eq_some_iff, Document.nextOpening?_eq_none_iff,
    d.nextOpening?_eq_searchOpening? p⟩

/-- A column that is asked for above the document does not count, a brace in a comment is no
brace, and the one at the position itself is found. -/
example :
    let d := Document.ofLines [utf16 "// \x7b", utf16 "fn a() \x7b // \x7b"]
    d.nextOpening? ⟨-1, 9⟩ = some ⟨1, 7⟩ ∧ d.nextOpening? ⟨1, 7⟩ = some ⟨1, 7⟩
      ∧ d.nextOpening? ⟨1, 8⟩ = none := by
  decide +kernel

end JadeEditor
