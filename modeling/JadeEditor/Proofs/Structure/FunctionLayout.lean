import JadeEditor.Proofs.Structure.Balance
import JadeEditor.Proofs.Structure.Walk

/-!
# Files laid out in functions

In a file that is a row of functions, each with a header, a balanced body and a line
that closes it, with filler lines around them, the outline names the headers, going
forward leads from closing brace to closing brace, and going back from inside a
function leads to its header.
-/

namespace JadeEditor

set_option autoImplicit false

open CodeUnit

/-- The braces of a line outside its comment. -/
def Line.sides (t : Text) : List Side := (Line.code t).filterMap Brace.side?

/-- A line that neither defines a function nor has a brace outside its comment. -/
def Line.IsFiller (t : Text) : Prop := Line.isDefinition t = false ∧ Line.sides t = []

instance : DecidablePred Line.IsFiller := fun _ => inferInstanceAs (Decidable (_ ∧ _))

/-- A function of a file, with the filler lines above it. -/
structure FunctionBlock where
  lead : List Text
  header : Text
  body : List Text
  closer : Text
  lead_filler : ∀ t ∈ lead, Line.IsFiller t
  header_defines : Line.isDefinition header = true
  header_opens : Line.sides header = [.opening]
  body_other : ∀ t ∈ body, Line.isDefinition t = false
  body_balanced : Balanced (body.flatMap Line.sides)
  closer_other : Line.isDefinition closer = false
  closer_closes : Line.sides closer = [.closing]

namespace FunctionBlock

def lines (f : FunctionBlock) : List Text := f.lead ++ f.header :: (f.body ++ [f.closer])

/-- The start of the header, where `above` is the number of lines above the block. -/
def start (f : FunctionBlock) (above : Nat) : Position := ⟨(above + f.lead.length : Nat), 0⟩

/-- The place of the brace on the last line. -/
def stop (f : FunctionBlock) (above : Nat) : Position :=
  ⟨(above + f.lead.length + 1 + f.body.length : Nat), (Line.code f.closer).idxOf closeBrace⟩

theorem length_lines (f : FunctionBlock) :
    f.lines.length = f.lead.length + 1 + f.body.length + 1 := by
  simp [lines]
  omega

end FunctionBlock

/-! ## Braces of a function -/

namespace Brace

theorem sides_ofLines (line : Nat) (ts : List Text) :
    (ofLines line ts).map side = ts.flatMap Line.sides := by
  induction ts generalizing line with
  | nil => rfl
  | cons t ts ih =>
    rw [ofLines, List.map_append, sides_ofPiece, ih]
    rfl

theorem ofLines_of_filler {ts : List Text} (h : ∀ t ∈ ts, Line.IsFiller t) (line : Nat) :
    ofLines line ts = [] := by
  rw [← List.map_eq_nil_iff, sides_ofLines, List.flatMap_eq_nil_iff]
  intro t ht
  exact (h t ht).2

theorem ofPiece_of_single {line : Nat} {t : Text} {s : Side} (h : t.filterMap side? = [s]) :
    ofPiece line 0 t = [⟨s, ⟨line, t.idxOf s.unit⟩⟩] := by
  rw [← sides_ofPiece line 0] at h
  obtain ⟨b, more, hpiece, hb, hmore⟩ := List.map_eq_cons_iff.mp h
  obtain rfl : more = [] := List.map_eq_nil_iff.mp hmore
  -- The first unit like this one is a brace too, hence the only one.
  have hunit : s.unit ∈ t := by
    have hmem : b ∈ ofPiece line 0 t := by simp [hpiece]
    obtain ⟨k, -, hk⟩ := mem_ofPiece_iff.mp hmem
    rw [hb] at hk
    exact List.mem_of_getElem? hk
  have hfirst : (⟨s, ⟨line, t.idxOf s.unit⟩⟩ : Brace) ∈ ofPiece line 0 t := by
    apply mem_ofPiece_iff.mpr
    refine ⟨t.idxOf s.unit, by simp, ?_⟩
    exact List.getElem?_idxOf hunit
  rw [hpiece] at hfirst ⊢
  rw [List.mem_singleton.mp hfirst]

end Brace

namespace FunctionBlock

open Brace

theorem ofLines_lines (f : FunctionBlock) (above : Nat) : ∃ (o : Position) (word : List Brace),
    ofLines above f.lines = ⟨.opening, o⟩ :: word ++ [⟨.closing, f.stop above⟩]
      ∧ f.start above ≤ o ∧ Balanced (word.map side) := by
  refine ⟨⟨(above + f.lead.length : Nat), (Line.code f.header).idxOf openBrace⟩,
    ofLines (above + f.lead.length + 1) f.body, ?_, ?_, ?_⟩
  · rw [lines, ofLines_append, ofLines_of_filler f.lead_filler, List.nil_append, ofLines,
      ofPiece_of_single f.header_opens, ofLines_append, ofLines, ofPiece_of_single f.closer_closes]
    rfl
  · rw [Position.le_iff]
    right
    constructor
    · rfl
    · exact Int.natCast_nonneg _
  · rw [sides_ofLines]
    exact f.body_balanced

theorem stepForward_eq {d : Document} {f : FunctionBlock} {above below : List Text}
    (h : d.lines = above ++ f.lines ++ below) {p : Position} (hp : p ≤ f.start above.length)
    (hpast : ∀ b ∈ ofLines 0 above, b.side = .opening → b.position < p) :
    d.stepForward p = .moved (f.stop above.length) := by
  obtain ⟨o, word, hblock, ho, hword⟩ := f.ofLines_lines above.length
  have hbraces : d.braces = ofLines 0 above ++ ⟨.opening, o⟩ :: word
      ++ ⟨.closing, f.stop above.length⟩ :: ofLines (above ++ f.lines).length below := by
    rw [Document.braces, h, ofLines_append, ofLines_append, Nat.zero_add, Nat.zero_add, hblock]
    simp
  have hcode : d.codeAt? o = some openBrace := by
    apply Document.mem_braces_iff (b := ⟨.opening, o⟩).mp
    rw [hbraces]
    simp
  have hclosing := (Document.closing?_iff_split hcode).mpr ⟨_, _, _, hbraces, hword⟩
  rw [List.append_assoc, List.cons_append] at hbraces
  have hopening := Document.nextOpening?_of_split hbraces rfl (Position.le_trans hp ho) hpast
  simp only [Document.stepForward, hopening, hclosing]

/-! ## The definition of a function -/

theorem collect_lines (f : FunctionBlock) (above offset : Nat) : ∃ name offset',
    Definition.collect above offset f.lines = [⟨name, (f.start above).line, offset'⟩] := by
  have hlead : ∀ t ∈ f.lead, Line.isDefinition t = false := fun t ht => (f.lead_filler t ht).1
  have hbehind : ∀ t ∈ f.body ++ [f.closer], Line.isDefinition t = false := by
    intro t ht
    rcases List.mem_append.mp ht with ht | ht
    · exact f.body_other t ht
    · rw [List.mem_singleton.mp ht]
      exact f.closer_other
  obtain ⟨name, hheader⟩ := Definition.collect_of_definition f.header_defines
    (above + f.lead.length) (offset + Text.extent f.lead) (f.body ++ [f.closer])
  refine ⟨name, (offset + Text.extent f.lead : Nat), ?_⟩
  rw [lines, Definition.collect_append, Definition.collect_of_others hlead, hheader,
    Definition.collect_of_others hbehind]
  rfl

theorem outline_eq {d : Document} {f : FunctionBlock} {above below : List Text}
    (h : d.lines = above ++ f.lines ++ below) : ∃ name offset offset',
    d.outline = Definition.collect 0 0 above
      ++ ⟨name, (f.start above.length).line, offset⟩
      :: Definition.collect (above ++ f.lines).length offset' below := by
  obtain ⟨name, offset, hf⟩ := f.collect_lines above.length (Text.extent above)
  refine ⟨name, offset, Text.extent above + Text.extent f.lines, ?_⟩
  rw [Document.outline_of_lines h, hf, List.append_assoc, List.length_append]
  rfl

/-- From inside a function the nearest definition above is its own. -/
theorem stepBack_inside {d : Document} {f : FunctionBlock} {above below : List Text}
    (h : d.lines = above ++ f.lines ++ below) {p : Position} (hstart : f.start above.length < p)
    (hstop : p ≤ f.stop above.length) : d.stepBack p = .moved (f.start above.length) := by
  obtain ⟨name, offset, offset', houtline⟩ := outline_eq h
  have hbelow : ∀ e ∈ Definition.collect (above ++ f.lines).length offset' below,
      ¬ decide ((⟨e.line, 0⟩ : Position) < p) = true := by
    intro e he
    have hline := Definition.line_of_mem_collect he
    rw [List.length_append, length_lines] at hline
    simp only [stop, Position.le_iff, Position.lt_iff, decide_eq_true_eq] at hstop ⊢
    omega
  rw [Document.stepBack_eq, Document.definitionsBefore, houtline, List.filter_append,
    List.filter_cons_of_pos (by exact decide_eq_true hstart), List.filter_eq_nil_iff.mpr hbelow,
    List.getLast?_concat]
  rfl

/-! ## From function to function -/

def linesAbove (fs : List FunctionBlock) (k : Nat) : List Text := (fs.take k).flatMap lines

theorem linesAbove_succ {fs : List FunctionBlock} {k : Nat} {f : FunctionBlock}
    (h : fs[k]? = some f) : linesAbove fs (k + 1) = linesAbove fs k ++ f.lines := by
  rw [linesAbove, List.take_add_one, h, List.flatMap_append, linesAbove]
  simp

theorem exists_below {fs : List FunctionBlock} {k : Nat} {f : FunctionBlock}
    (h : fs[k]? = some f) (rest : List Text) :
    ∃ below, fs.flatMap lines ++ rest = linesAbove fs k ++ f.lines ++ below := by
  refine ⟨(fs.drop (k + 1)).flatMap lines ++ rest, ?_⟩
  rw [← linesAbove_succ h, linesAbove, ← List.append_assoc, ← List.flatMap_append,
    List.take_append_drop]

/-- The place where going forward from the top has got to behind `k` functions. -/
def reached (fs : List FunctionBlock) : Nat → Position
  | 0 => ⟨0, 0⟩
  | k + 1 => match fs[k]? with
    | some f => f.stop (linesAbove fs k).length
    | none => ⟨0, 0⟩

/-- Every block opened above is behind that place. -/
theorem before_reached (fs : List FunctionBlock) {k : Nat} (hk : k ≤ fs.length) :
    ∀ b ∈ ofLines 0 (linesAbove fs k), b.side = .opening → b.position < reached fs k := by
  cases k with
  | zero => exact fun b hb => absurd hb List.not_mem_nil
  | succ k =>
    obtain ⟨f, hf⟩ : ∃ f, fs[k]? = some f := ⟨_, List.getElem?_eq_getElem hk⟩
    obtain ⟨o, word, hblock, -, -⟩ := f.ofLines_lines (linesAbove fs k).length
    have hsorted := pairwise_ofLines 0 (linesAbove fs (k + 1))
    rw [linesAbove_succ hf, ofLines_append, Nat.zero_add, hblock, ← List.append_assoc] at hsorted ⊢
    intro b hb hopening
    simp only [reached, hf]
    rcases List.mem_append.mp hb with hb | hb
    · exact (List.pairwise_append.mp hsorted).2.2 b hb _ List.mem_cons_self
    · rw [List.mem_singleton.mp hb] at hopening
      cases hopening

theorem reached_le_start {fs : List FunctionBlock} {k : Nat} {f : FunctionBlock}
    (h : fs[k]? = some f) : reached fs k ≤ f.start (linesAbove fs k).length := by
  rw [Position.le_iff]
  cases k with
  | zero =>
    simp only [reached, start]
    omega
  | succ k =>
    obtain ⟨g, hg⟩ : ∃ g, fs[k]? = some g := by
      have hlt := (List.getElem?_eq_some_iff.mp h).1
      exact ⟨_, List.getElem?_eq_getElem (Nat.lt_of_succ_lt hlt)⟩
    simp only [reached, hg, stop, start, linesAbove_succ hg, List.length_append, length_lines]
    omega

theorem length_collect_linesAbove (fs : List FunctionBlock) {k : Nat} (hk : k ≤ fs.length) :
    (Definition.collect 0 0 (linesAbove fs k)).length = k := by
  induction k with
  | zero => rfl
  | succ k ih =>
    have hf : fs[k]? = some fs[k] := List.getElem?_eq_getElem hk
    obtain ⟨name, offset', hblock⟩ := fs[k].collect_lines (0 + (linesAbove fs k).length)
      (0 + Text.extent (linesAbove fs k))
    rw [linesAbove_succ hf, Definition.collect_append, hblock, List.length_append,
      ih (Nat.le_of_lt hk)]
    rfl

variable {d : Document} {fs : List FunctionBlock} {rest : List Text}
  (hlines : d.lines = fs.flatMap lines ++ rest)
include hlines

theorem stepForward_reached {k : Nat} (hk : k < fs.length) :
    d.stepForward (reached fs k) = .moved (reached fs (k + 1)) := by
  have hf : fs[k]? = some fs[k] := List.getElem?_eq_getElem hk
  obtain ⟨below, hbelow⟩ := exists_below hf rest
  rw [stepForward_eq (hlines.trans hbelow) (reached_le_start hf)
    (before_reached fs (Nat.le_of_lt hk))]
  simp only [reached, hf]

theorem stepForward_last (hrest : ∀ t ∈ rest, Line.IsFiller t) :
    d.stepForward (reached fs fs.length) = .nothing := by
  have hnone : d.nextOpening? (reached fs fs.length) = none := by
    apply Document.nextOpening?_eq_none
    rw [Document.braces, hlines, ofLines_append, ofLines_of_filler hrest, List.append_nil]
    have hbefore := before_reached fs (Nat.le_refl _)
    rw [linesAbove, List.take_length] at hbefore
    exact hbefore
  simp only [Document.stepForward, hnone]

theorem outline_entry {k : Nat} {f : FunctionBlock} (h : fs[k]? = some f) :
    d.outline[k]?.map Definition.line = some (f.start (linesAbove fs k).length).line := by
  obtain ⟨below, hbelow⟩ := exists_below h rest
  obtain ⟨name, offset, offset', houtline⟩ := outline_eq (hlines.trans hbelow)
  have hk := (List.getElem?_eq_some_iff.mp h).1
  have hlength := length_collect_linesAbove fs (Nat.le_of_lt hk)
  rw [houtline, List.getElem?_append_right (by omega), hlength, Nat.sub_self]
  rfl

theorem length_outline (hrest : ∀ t ∈ rest, Line.IsFiller t) :
    d.outline.length = fs.length := by
  have hall := length_collect_linesAbove fs (Nat.le_refl _)
  rw [linesAbove, List.take_length] at hall
  rw [Document.outline, hlines, Definition.collect_append, List.length_append, hall,
    Definition.collect_of_others fun t ht => (hrest t ht).1]
  rfl

theorem codeAt?_stop {k : Nat} {f : FunctionBlock} (h : fs[k]? = some f) :
    d.codeAt? (f.stop (linesAbove fs k).length) = some closeBrace := by
  obtain ⟨below, hbelow⟩ := exists_below h rest
  obtain ⟨o, word, hblock, -, -⟩ := f.ofLines_lines (linesAbove fs k).length
  apply Document.mem_braces_iff (b := ⟨.closing, f.stop _⟩).mp
  rw [Document.braces, hlines, hbelow, ofLines_append, ofLines_append, Nat.zero_add, hblock]
  simp

/-- From the header of a function the next block is its own. -/
theorem stepForward_start {k : Nat} {f : FunctionBlock} (h : fs[k]? = some f) :
    d.stepForward (f.start (linesAbove fs k).length) = .moved (f.stop (linesAbove fs k).length) := by
  obtain ⟨below, hbelow⟩ := exists_below h rest
  apply stepForward_eq (hlines.trans hbelow) (Position.le_refl _)
  intro b hb hopening
  have hk := (List.getElem?_eq_some_iff.mp h).1
  have hbefore := before_reached fs (Nat.le_of_lt hk) b hb hopening
  have hreached := reached_le_start h
  rw [Position.le_iff] at hreached
  rw [Position.lt_iff] at hbefore ⊢
  omega

theorem toBlockEnd_top (hrest : ∀ t ∈ rest, Line.IsFiller t) (count : Nat) :
    d.toBlockEnd ⟨0, 0⟩ count
      = ⟨reached fs (min count fs.length), (min count fs.length : Nat),
        if count ≤ fs.length then .done else .exhausted⟩ := by
  have hwalk := Travel.walk_along (fun k => stepForward_reached hlines (k := k))
    (stepForward_last hlines hrest) ⟨0, 0⟩ (Nat.zero_le _) count
  rw [Nat.zero_add] at hwalk
  exact hwalk

end FunctionBlock

open FunctionBlock in
/-- Whatever finds functions in a file laid out in them finds the same ones: the outline has
one entry for each, at its header; going forward from the top leads to one closing brace
after the other and no further; and from anywhere behind the start of a header and not behind
the closing brace, going back leads to that start and forward again to that brace. -/
theorem navigation_agrees_with_outline (d : Document) (fs : List FunctionBlock) (rest : List Text)
    (hrest : ∀ t ∈ rest, Line.IsFiller t) (hlines : d.lines = fs.flatMap lines ++ rest) :
    d.outline.length = fs.length
      ∧ (∀ k f, fs[k]? = some f →
        let start := f.start (linesAbove fs k).length
        let stop := f.stop (linesAbove fs k).length
        d.outline[k]?.map Definition.line = some start.line
          ∧ d.codeAt? stop = some closeBrace
          ∧ d.toBlockEnd ⟨0, 0⟩ (k + 1 : Nat) = ⟨stop, (k + 1 : Nat), .done⟩
          ∧ ∀ p, start < p → p ≤ stop →
            d.toDefinitionStart p 1 = ⟨start, 1, .done⟩ ∧ d.toBlockEnd start 1 = ⟨stop, 1, .done⟩)
      ∧ ∀ count : Nat, fs.length < count →
        (d.toBlockEnd ⟨0, 0⟩ count).steps = fs.length
          ∧ (d.toBlockEnd ⟨0, 0⟩ count).outcome = .exhausted := by
  refine ⟨length_outline hlines hrest, ?_, ?_⟩
  · intro k f hf start stop
    refine ⟨outline_entry hlines hf, codeAt?_stop hlines hf, ?_, ?_⟩
    · have hk : k + 1 ≤ fs.length := (List.getElem?_eq_some_iff.mp hf).1
      rw [toBlockEnd_top hlines hrest, if_pos hk, Nat.min_eq_left hk, reached, hf]
    · intro p hstart hstop
      obtain ⟨below, hbelow⟩ := exists_below hf rest
      constructor
      · change Travel.walk d.stepBack p 0 p 1 = _
        rw [Travel.walk, stepBack_inside (hlines.trans hbelow) hstart hstop]
        rfl
      · change Travel.walk d.stepForward start 0 start 1 = _
        rw [Travel.walk, stepForward_start hlines hf]
        rfl
  · intro count hcount
    rw [toBlockEnd_top hlines hrest, if_neg (by omega), Nat.min_eq_right (by omega)]
    exact ⟨rfl, rfl⟩

/-- A function whose body is a block with a brace in a comment. -/
def FunctionBlock.nested : FunctionBlock where
  lead := [utf16 "// \x7d"]
  header := utf16 "fn a() \x7b // \x7d"
  body := [utf16 "  if \x7b", utf16 "  \x7d // \x7b"]
  closer := utf16 "\x7d"
  lead_filler := by decide +kernel
  header_defines := by decide +kernel
  header_opens := by decide +kernel
  body_other := by decide +kernel
  body_balanced := Balanced.block Balanced.nil Balanced.nil
  closer_other := by decide +kernel
  closer_closes := by decide +kernel

def FunctionBlock.empty : FunctionBlock where
  lead := [[], utf16 "print"]
  header := utf16 "fn b() \x7b"
  body := []
  closer := utf16 " \x7d"
  lead_filler := by decide +kernel
  header_defines := by decide +kernel
  header_opens := by decide +kernel
  body_other := by decide +kernel
  body_balanced := Balanced.nil
  closer_other := by decide +kernel
  closer_closes := by decide +kernel

open FunctionBlock in
theorem navigation_agrees_on_two_functions :
    let d := Document.ofLines ([nested, empty].flatMap lines ++ [[]])
    d.outline.length = 2
      ∧ d.toBlockEnd ⟨0, 0⟩ 2 = ⟨⟨8, 1⟩, 2, .done⟩
      ∧ d.toDefinitionStart ⟨3, 2⟩ 1 = ⟨⟨1, 0⟩, 1, .done⟩
      ∧ d.toBlockEnd ⟨1, 0⟩ 1 = ⟨⟨4, 0⟩, 1, .done⟩
      ∧ (d.toBlockEnd ⟨0, 0⟩ 5).outcome = .exhausted := by
  intro d
  obtain ⟨hlength, hfunctions, hover⟩ := navigation_agrees_with_outline d [nested, empty] [[]]
    (by decide +kernel) rfl
  obtain ⟨-, -, -, hinside⟩ := hfunctions 0 nested rfl
  obtain ⟨-, -, hsecond, -⟩ := hfunctions 1 empty rfl
  have hfirst := hinside ⟨3, 2⟩ (by decide +kernel) (by decide +kernel)
  exact ⟨hlength, hsecond, hfirst.1, hfirst.2, (hover 5 (by decide)).2⟩

end JadeEditor
