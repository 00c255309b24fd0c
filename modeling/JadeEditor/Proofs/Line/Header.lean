import JadeEditor.Proofs.Line.Highlighting
import JadeEditor.Proofs.Structure.Outline

/-!
# The grammar of headers

A header is `fn`, white space, a name, perhaps white space, `()` and anything. No unit is
both white space and part of a name, and the parenthesis is neither, so each part ends where
the next one begins: there is at most one way to cut a line into a header, and reading every
run as far as it goes finds it. A search that goes back to shorter runs finds nothing more.
-/

namespace JadeEditor.Line

set_option autoImplicit false

open CodeUnit

/-- Where a run of units ends, if what comes behind it does not go on with it. -/
theorem run_cut {p : CodeUnit → Bool} {front : Text} (hfront : ∀ c ∈ front, p c) (back : Text)
    (hback : ∀ c ∈ back.head?, ¬ p c) :
    (front ++ back).takeWhile p = front ∧ (front ++ back).dropWhile p = back := by
  rw [List.takeWhile_append_of_pos hfront, List.dropWhile_append_of_pos hfront]
  cases back with
  | nil => exact ⟨List.append_nil front, rfl⟩
  | cons c back =>
    have hc : ¬ p c := hback c rfl
    rw [List.takeWhile_cons_of_neg hc, List.dropWhile_cons_of_neg hc, List.append_nil]
    exact ⟨rfl, rfl⟩

namespace Header

/-- The header is one of the language: its gap and its name are not empty, and the name
starts with a letter or an underscore. -/
structure WellFormed (h : Header) : Prop extends Proper h where
  gap_ne_nil : h.gap ≠ []
  start : ∃ c ∈ h.name.head?, c.isNameStart
  pad : ∀ c ∈ h.pad, c.isSpace

variable {t : Text} {h : Header}

theorem wellFormed_of_parse? (hparse : parse? t = some h) : h.WellFormed := by
  have hproper := proper_of_parse? hparse
  match t with
  | [] => cases hparse
  | [_] => cases hparse
  | f :: n :: line =>
    simp only [parse?] at hparse
    split at hparse
    · split at hparse
      · rename_i hparts
        obtain ⟨-, -, hgap, hstart, -, -⟩ := hparts
        obtain rfl := Option.some.inj hparse
        exact ⟨hproper, hgap, (Option.any_eq_true _ _).mp hstart,
          fun c hc => List.mem_takeWhile_imp hc⟩
      · cases hparse
    · cases hparse

theorem parse?_text (hform : h.WellFormed) : parse? h.text = some h := by
  obtain ⟨⟨hgap, hname⟩, hgap_ne_nil, ⟨s, hs, hstart⟩, hpad⟩ := hform
  -- Behind the gap stands the start of the name, behind the name white space or the parenthesis.
  have hnamed := run_cut hgap (h.name ++ (h.pad ++ openParen :: closeParen :: h.rest)) (by
    intro c hc
    rw [List.head?_append_of_ne_nil _ hname.nonempty] at hc
    have hword := hname.units c (List.mem_of_mem_head? hc)
    simp [isSpace_eq_false_of_isWord hword])
  have hpadded := run_cut hname.units (h.pad ++ openParen :: closeParen :: h.rest) (by
    intro c hc hword
    cases hp : h.pad with
    | nil =>
      rw [hp] at hc
      obtain rfl := Option.some.inj hc
      exact absurd hword (by decide)
    | cons d pad =>
      rw [hp] at hc
      obtain rfl := Option.some.inj hc
      have hspace := hpad d (hp ▸ List.mem_cons_self)
      rw [isSpace_eq_false_of_isWord hword] at hspace
      cases hspace)
  have hparens := run_cut hpad (openParen :: closeParen :: h.rest) (by
    intro c hc
    obtain rfl := Option.some.inj hc
    decide)
  have hhead : h.name.head?.any isNameStart = true := (Option.any_eq_true _ _).mpr ⟨s, hs, hstart⟩
  have hline : h.text = ofChar 'f' :: ofChar 'n'
      :: (h.gap ++ (h.name ++ (h.pad ++ openParen :: closeParen :: h.rest))) := by
    simp only [text, List.append_assoc]
  rw [hline]
  simp only [parse?, hnamed, hpadded, hparens]
  exact if_pos ⟨trivial, trivial, hgap_ne_nil, hhead, trivial, trivial⟩

theorem parse?_eq_some_iff : parse? t = some h ↔ h.WellFormed ∧ h.text = t := by
  constructor
  · exact fun hparse => ⟨wellFormed_of_parse? hparse, text_of_parse? hparse⟩
  · rintro ⟨hform, rfl⟩
    exact parse?_text hform

end Header

/-! ## Searching with shorter runs -/

/-- A piece of a pattern: one unit, or a run of units that may be empty. -/
inductive Piece where
  | unit (p : CodeUnit → Bool)
  | run (p : CodeUnit → Bool)

namespace Piece

/-- The longest run behind which `next` succeeds, and what it gives there. -/
def longestRun {β : Type} (p : CodeUnit → Bool) (next : Text → Option β) :
    Text → Option (Text × β)
  | [] => (next []).map fun b => ([], b)
  | c :: t =>
    (if p c then (longestRun p next t).map fun (front, b) => (c :: front, b) else none).or
      ((next (c :: t)).map fun b => ([], b))

/-- Cuts the start of a text into the pieces; the last text is what is left over. When a
piece does not fit, the run before it is made shorter. -/
def search : List Piece → Text → Option (List Text)
  | [], t => some [t]
  | unit p :: ps, c :: t => if p c then (search ps t).map ([c] :: ·) else none
  | unit _ :: _, [] => none
  | run p :: ps, t => (longestRun p (search ps) t).map fun (front, ts) => front :: ts

/-- The texts are what the pieces stand for, in order, and what is left over of the text. -/
inductive Cuts : List Piece → Text → List Text → Prop
  | nil {t : Text} : Cuts [] t [t]
  | unit {p : CodeUnit → Bool} {c : CodeUnit} {ps : List Piece} {t : Text} {ts : List Text} :
    p c → Cuts ps t ts → Cuts (unit p :: ps) (c :: t) ([c] :: ts)
  | run {p : CodeUnit → Bool} {front : Text} {ps : List Piece} {t : Text} {ts : List Text} :
    (∀ c ∈ front, p c) → Cuts ps t ts → Cuts (run p :: ps) (front ++ t) (front :: ts)

section Run

variable {β : Type} {p : CodeUnit → Bool} {next : Text → Option β}

theorem longestRun_eq_some {t front : Text} {b : β} (h : longestRun p next t = some (front, b)) :
    (∀ c ∈ front, p c) ∧ ∃ back, t = front ++ back ∧ next back = some b := by
  induction t generalizing front with
  | nil =>
    obtain ⟨_, hnext, hpair⟩ := Option.map_eq_some_iff.mp h
    cases hpair
    exact ⟨fun c hc => absurd hc List.not_mem_nil, [], rfl, hnext⟩
  | cons c t ih =>
    rw [longestRun, Option.or_eq_some_iff] at h
    rcases h with hlonger | ⟨-, hshorter⟩
    · split at hlonger
      · rename_i hc
        obtain ⟨⟨more, _⟩, hrun, hpair⟩ := Option.map_eq_some_iff.mp hlonger
        cases hpair
        obtain ⟨hunits, back, rfl, hnext⟩ := ih hrun
        exact ⟨List.forall_mem_cons.mpr ⟨hc, hunits⟩, back, rfl, hnext⟩
      · cases hlonger
    · obtain ⟨_, hnext, hpair⟩ := Option.map_eq_some_iff.mp hshorter
      cases hpair
      exact ⟨fun c hc => absurd hc List.not_mem_nil, c :: t, rfl, hnext⟩

theorem isSome_longestRun {front back : Text} (hfront : ∀ c ∈ front, p c)
    (hnext : (next back).isSome) : (longestRun p next (front ++ back)).isSome := by
  induction front with
  | nil => cases back <;> simp [longestRun, hnext]
  | cons c front ih =>
    obtain ⟨hc, hunits⟩ := List.forall_mem_cons.mp hfront
    simp [longestRun, hc, ih hunits]

end Run

theorem cuts_of_search {ps : List Piece} {t : Text} {ts : List Text}
    (h : search ps t = some ts) : Cuts ps t ts := by
  induction ps generalizing t ts with
  | nil =>
    obtain rfl := Option.some.inj h
    exact .nil
  | cons piece ps ih =>
    cases piece with
    | unit p =>
      cases t with
      | nil => cases h
      | cons c t =>
        rw [search] at h
        split at h
        · rename_i hc
          obtain ⟨more, hmore, rfl⟩ := Option.map_eq_some_iff.mp h
          exact .unit hc (ih hmore)
        · cases h
    | run p =>
      obtain ⟨⟨front, more⟩, hrun, rfl⟩ := Option.map_eq_some_iff.mp h
      obtain ⟨hunits, back, rfl, hback⟩ := longestRun_eq_some hrun
      exact .run hunits (ih hback)

/-- The search does not miss a cut, though it may find another one. -/
theorem Cuts.isSome_search {ps : List Piece} {t : Text} {ts : List Text} (h : Cuts ps t ts) :
    (search ps t).isSome := by
  induction h with
  | nil => rfl
  | unit hc _ ih => simp [search, hc, ih]
  | run hunits _ ih =>
    rw [search, Option.isSome_map]
    exact isSome_longestRun hunits ih

end Piece

namespace Header

/-- The pieces of a header, as a pattern for regular expressions has them. -/
def pieces : List Piece :=
  [.unit (· == ofChar 'f'), .unit (· == ofChar 'n'), .unit isSpace, .run isSpace,
    .unit isNameStart, .run isWord, .run isSpace, .unit (· == openParen), .unit (· == closeParen)]

/-- The header made up of the texts of its pieces. -/
def ofTexts : List Text → Option Header
  | [_, _, space, spaces, start, word, pad, _, _, rest] =>
    some ⟨space ++ spaces, start ++ word, pad, rest⟩
  | _ => none

variable {t : Text} {h : Header}

theorem exists_header {ts : List Text} (hcuts : Piece.Cuts pieces t ts) :
    ∃ h, ofTexts ts = some h ∧ h.WellFormed ∧ h.text = t := by
  unfold pieces at hcuts
  cases hcuts with | unit hf hcuts =>
  cases hcuts with | unit hn hcuts =>
  cases hcuts with | @unit _ space _ _ _ hspace hcuts =>
  cases hcuts with | @run _ spaces _ _ _ hspaces hcuts =>
  cases hcuts with | @unit _ start _ _ _ hstart hcuts =>
  cases hcuts with | @run _ word _ _ _ hword hcuts =>
  cases hcuts with | @run _ pad _ _ _ hpad hcuts =>
  cases hcuts with | unit hopen hcuts =>
  cases hcuts with | @unit _ _ _ behind _ hclose hcuts =>
  cases hcuts with | nil =>
  have hunit : start.isWord := by simp [isWord, hstart]
  refine ⟨⟨space :: spaces, start :: word, pad, behind⟩, rfl, ⟨⟨?_, ⟨?_, ?_⟩⟩, ?_, ?_, hpad⟩, ?_⟩
  · exact List.forall_mem_cons.mpr ⟨hspace, hspaces⟩
  · exact List.cons_ne_nil _ _
  · exact List.forall_mem_cons.mpr ⟨hunit, hword⟩
  · exact List.cons_ne_nil _ _
  · exact ⟨start, rfl, hstart⟩
  · obtain rfl := beq_iff_eq.mp hf
    obtain rfl := beq_iff_eq.mp hn
    obtain rfl := beq_iff_eq.mp hopen
    obtain rfl := beq_iff_eq.mp hclose
    simp [text]

theorem WellFormed.cuts (hform : h.WellFormed) : ∃ ts, Piece.Cuts pieces h.text ts := by
  obtain ⟨gap, name, pad, rest⟩ := h
  obtain ⟨⟨hgap, hname⟩, hgap_ne_nil, ⟨start, hs, hstart⟩, hpad⟩ := hform
  obtain ⟨space, spaces, rfl⟩ := List.exists_cons_of_ne_nil hgap_ne_nil
  obtain ⟨word, rfl⟩ := List.head?_eq_some_iff.mp hs
  obtain ⟨hspace, hspaces⟩ := List.forall_mem_cons.mp hgap
  obtain ⟨-, hword⟩ := List.forall_mem_cons.mp hname.units
  have hcuts : Piece.Cuts pieces (ofChar 'f' :: ofChar 'n' :: space :: (spaces ++ start ::
      (word ++ (pad ++ openParen :: closeParen :: rest)))) _ :=
    .unit rfl <| .unit rfl <| .unit hspace <| .run hspaces <| .unit hstart <| .run hword <|
      .run hpad <| .unit rfl <| .unit rfl .nil
  have htext : text ⟨space :: spaces, start :: word, pad, rest⟩ = ofChar 'f' :: ofChar 'n'
      :: space :: (spaces ++ start :: (word ++ (pad ++ openParen :: closeParen :: rest))) := by
    simp [text]
  exact ⟨_, htext ▸ hcuts⟩

/-- Reading every run as far as it goes finds what the search finds. -/
theorem parse?_eq_search (t : Text) : parse? t = (Piece.search pieces t).bind ofTexts := by
  cases hsearch : Piece.search pieces t with
  | some ts =>
    obtain ⟨h, hheader, hform, htext⟩ := exists_header (Piece.cuts_of_search hsearch)
    rw [Option.bind_some, hheader]
    exact parse?_eq_some_iff.mpr ⟨hform, htext⟩
  | none =>
    rw [Option.bind_none, Option.eq_none_iff_forall_ne_some]
    intro h hparse
    obtain ⟨hform, rfl⟩ := parse?_eq_some_iff.mp hparse
    obtain ⟨ts, hcuts⟩ := hform.cuts
    have hfound := hcuts.isSome_search
    rw [hsearch] at hfound
    cases hfound

end Header

/-- A line defines a function with a name exactly if it is a well-formed header with that name.
There is at most one such header, a line without one defines nothing, and a search that also
tries shorter runs comes to the same name. -/
theorem definedName?_follows_grammar (t : Text) :
    (∀ name, definedName? t = some name
        ↔ ∃ h : Header, h.WellFormed ∧ h.text = t ∧ h.name = name)
      ∧ {h : Header | h.WellFormed ∧ h.text = t}.Subsingleton
      ∧ (definedName? t = none ↔ ¬ ∃ h : Header, h.WellFormed ∧ h.text = t)
      ∧ (isDefinition t = true ↔ ∃ h : Header, h.WellFormed ∧ h.text = t)
      ∧ definedName? t = ((Piece.search Header.pieces t).bind Header.ofTexts).map Header.name := by
  have hheader : isDefinition t = true ↔ ∃ h : Header, h.WellFormed ∧ h.text = t := by
    rw [isDefinition, Option.isSome_iff_exists]
    exact exists_congr fun h => Header.parse?_eq_some_iff
  refine ⟨fun name => ?_, ?_, ?_, hheader, ?_⟩
  · rw [definedName?, Option.map_eq_some_iff]
    refine exists_congr fun h => ?_
    rw [Header.parse?_eq_some_iff, and_assoc]
  · intro h hh h' hh'
    have hparse := Header.parse?_eq_some_iff.mpr hh
    rw [Header.parse?_eq_some_iff.mpr hh'] at hparse
    exact (Option.some.inj hparse).symm
  · rw [← hheader, ← isSome_definedName?, Option.not_isSome_iff_eq_none]
  · rw [definedName?, Header.parse?_eq_search]

end JadeEditor.Line
