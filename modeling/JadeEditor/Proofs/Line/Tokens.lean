import JadeEditor.Line.Token
import Mathlib.Data.List.Pairwise

/-!
# Tokens keep apart

A rule finds spans that are not empty and end inside the line, and a span becomes a
token unless it overlaps one that is there. So the tokens of a line never overlap, and
from left to right each ends before the next one starts. What a rule looks for does
not matter for this: it is proved for any way of finding spans in a line.
-/

namespace JadeEditor.Line

set_option autoImplicit false

/-- The span is not empty and ends within the first `length` columns. -/
def Span.Inside (length : Nat) (s : Span) : Prop := s.start < s.stop ∧ s.stop ≤ length

theorem Span.overlaps_comm (a b : Span) : a.overlaps b = b.overlaps a := Bool.and_comm _ _

/-! ## What a match covers -/

theorem Header.text_of_parse? {t : Text} {h : Header} (hparse : Header.parse? t = some h) :
    h.text = t := by
  match t with
  | [] => cases hparse
  | [_] => cases hparse
  | f :: n :: line =>
    simp only [parse?] at hparse
    split at hparse
    · rename_i p q rest hrest
      split at hparse
      · rename_i hparts
        obtain ⟨rfl, rfl, -, -, rfl, rfl⟩ := hparts
        obtain rfl := Option.some.inj hparse
        simp [text, ← hrest, List.takeWhile_append_dropWhile]
      · cases hparse
    · cases hparse

theorem Header.length_le_of_parse? {t : Text} {h : Header} (hparse : Header.parse? t = some h) :
    h.length ≤ t.length := by
  have htext := congrArg List.length (text_of_parse? hparse)
  simp only [text, List.length_cons, List.length_append] at htext
  simp only [length, nameStop, nameStart]
  omega

/-- The match and the part it captures end within the first `length` units. -/
def Match.Within (length : Nat) (m : Match) : Prop :=
  m.length ≤ length ∧ ∀ s, m.capture = some s → s.stop ≤ length

namespace Pattern

theorem length_le_of_wordAt {anyCase : Bool} {rest word : Text}
    (h : wordAt anyCase rest word = true) : word.length ≤ rest.length := by
  simp only [wordAt, Bool.and_eq_true, Bool.or_eq_true, beq_iff_eq] at h
  rcases h.1 with hseen | ⟨-, hseen⟩
  · have hlength := congrArg List.length hseen
    rw [List.length_take] at hlength
    omega
  · have hlength := congrArg List.length hseen
    rw [List.length_map, List.length_map, List.length_take] at hlength
    omega

theorem matchAt_within (p : Pattern) {before : Option CodeUnit} {rest : Text} {m : Match}
    (h : p.matchAt before rest = some m) : m.Within rest.length := by
  cases p with
  | comment =>
    simp only [matchAt] at h
    split at h
    · obtain rfl := Option.some.inj h
      exact ⟨Nat.le_refl _, fun s hs => nomatch hs⟩
    · cases h
  | header =>
    simp only [matchAt] at h
    split at h
    · cases h
    · obtain ⟨header, hparse, rfl⟩ := Option.map_eq_some_iff.mp h
      have hlength := Header.length_le_of_parse? hparse
      refine ⟨hlength, fun s hs => ?_⟩
      obtain rfl := Option.some.inj hs
      change header.nameStop ≤ rest.length
      rw [Header.length] at hlength
      omega
  | word choices anyCase =>
    simp only [matchAt] at h
    split at h
    · obtain ⟨w, hfind, rfl⟩ := Option.map_eq_some_iff.mp h
      exact ⟨length_le_of_wordAt (List.find?_some hfind), fun s hs => nomatch hs⟩
    · cases h
  | digits =>
    obtain rfl := Option.some.inj h
    exact ⟨(List.takeWhile_sublist _).length_le, fun s hs => nomatch hs⟩
  | optional lead tail =>
    match rest with
    | [] => cases h
    | c :: rest =>
      simp only [matchAt] at h
      split at h
      · cases h
      split at h
      · rename_i hhead
        obtain ⟨more, rfl⟩ := List.head?_eq_some_iff.mp hhead
        obtain rfl := Option.some.inj h
        refine ⟨by simp, fun s hs => ?_⟩
        obtain rfl := Option.some.inj hs
        simp
      · obtain rfl := Option.some.inj h
        exact ⟨by simp, fun s hs => nomatch hs⟩

end Pattern

theorem Part.stop_le_of_within {part : Part} {m : Match} {n : Nat} {s : Span}
    (hm : m.Within n) (hs : part.of m = some s) : s.stop ≤ n := by
  cases part with
  | whole =>
    obtain rfl := Option.some.inj hs
    exact hm.1
  | capture => exact hm.2 s hs

namespace Rule

theorem inside_spansFrom (rule : Rule) {before : Option CodeUnit} {column skip : Nat}
    {rest : Text} {s : Span} (hs : s ∈ rule.spansFrom before column skip rest) :
    s.Inside (column + rest.length) := by
  induction rest generalizing before column skip with
  | nil => cases hs
  | cons c rest ih =>
    have hmore {before : Option CodeUnit} {skip : Nat}
        (hs : s ∈ rule.spansFrom before (column + 1) skip rest) :
        s.Inside (column + (c :: rest).length) := by
      obtain ⟨hpos, hstop⟩ := ih hs
      refine ⟨hpos, ?_⟩
      rw [List.length_cons]
      omega
    cases skip with
    | succ k => exact hmore hs
    | zero =>
      simp only [spansFrom] at hs
      split at hs
      · exact hmore hs
      · rename_i m hmatch
        rcases List.mem_append.mp hs with hhere | hs
        · obtain ⟨found, hfound, rfl⟩ := List.mem_map.mp hhere
          obtain ⟨hpart, hpos⟩ := List.mem_filter.mp hfound
          have hstop := Part.stop_le_of_within (rule.pattern.matchAt_within hmatch)
            (Option.mem_toList.mp hpart)
          have hpos : found.start < found.stop := of_decide_eq_true hpos
          simp only [Span.Inside, Span.shift]
          omega
        · exact hmore hs

theorem inside_spans (rule : Rule) (line : Text) : ∀ s ∈ rule.spans line, s.Inside line.length := by
  intro s hs
  have hinside := rule.inside_spansFrom hs
  rwa [Nat.zero_add] at hinside

end Rule

/-! ## Taking spans -/

/-- A way of finding spans of a category in a line, whatever it looks for. -/
structure Finder where
  category : Category
  spans : Text → List Span
  inside : ∀ line, ∀ s ∈ spans line, s.Inside line.length

def Rule.finder (rule : Rule) : Finder := ⟨rule.category, rule.spans, rule.inside_spans⟩

namespace Finder

def add (line : Text) (tokens : List Token) (f : Finder) : List Token :=
  (f.spans line).foldl (Token.add f.category) tokens

/-- The tokens of a line that the finders make, the first of them first. -/
def classify (finders : List Finder) (line : Text) : List Token :=
  Token.sortByStart (finders.foldl (add line) [])

end Finder

theorem classify_eq_finders (rules : List Rule) (line : Text) :
    classify rules line = Finder.classify (rules.map Rule.finder) line := by
  rw [Finder.classify, List.foldl_map]
  rfl

namespace Token

def Clear (a b : Token) : Prop := a.span.overlaps b.span = false

instance : Std.Symm Clear where
  symm a b h := (Span.overlaps_comm b.span a.span).trans h

theorem clear_iff {a b : Token} :
    a.Clear b ↔ b.span.stop ≤ a.span.start ∨ a.span.stop ≤ b.span.start := by
  rw [Clear, Span.overlaps, Bool.and_eq_false_iff, decide_eq_false_iff_not,
    decide_eq_false_iff_not, Nat.not_lt, Nat.not_lt]

/-- The tokens lie inside a line of the given length and no two of them overlap. -/
structure Apart (length : Nat) (tokens : List Token) : Prop where
  inside : ∀ t ∈ tokens, t.span.Inside length
  clear : tokens.Pairwise Clear

section Apart

variable {length : Nat} {tokens : List Token}

theorem apart_nil (length : Nat) : Apart length [] :=
  ⟨fun _ ht => absurd ht List.not_mem_nil, .nil⟩

theorem Apart.add (h : Apart length tokens) {s : Span} (hs : s.Inside length)
    (category : Category) : Apart length (Token.add category tokens s) := by
  unfold Token.add
  split
  · exact h
  · rename_i hfree
    constructor
    · intro t ht
      rcases List.mem_append.mp ht with ht | ht
      · exact h.inside t ht
      · rw [List.mem_singleton.mp ht]
        exact hs
    · rw [List.pairwise_append]
      refine ⟨h.clear, List.pairwise_singleton _ _, ?_⟩
      intro a ha b hb
      rw [List.mem_singleton.mp hb, Clear, Span.overlaps_comm]
      apply Bool.eq_false_iff.mpr
      intro hover
      exact hfree (List.any_eq_true.mpr ⟨a, ha, hover⟩)

theorem Apart.addAll (h : Apart length tokens) {spans : List Span}
    (hs : ∀ s ∈ spans, s.Inside length) (category : Category) :
    Apart length (spans.foldl (Token.add category) tokens) := by
  induction spans generalizing tokens with
  | nil => exact h
  | cons s spans ih =>
    apply ih (h.add (hs s List.mem_cons_self) category)
    exact fun t ht => hs t (List.mem_cons_of_mem s ht)

theorem Apart.finders {line : Text} (h : Apart line.length tokens) (finders : List Finder) :
    Apart line.length (finders.foldl (Finder.add line) tokens) := by
  induction finders generalizing tokens with
  | nil => exact h
  | cons f finders ih => exact ih (h.addAll (f.inside line) f.category)

theorem Apart.perm {other : List Token} (h : Apart length tokens) (hperm : other.Perm tokens) :
    Apart length other where
  inside t ht := h.inside t (hperm.mem_iff.mp ht)
  clear := (hperm.pairwise_iff fun hab => symm hab).mpr h.clear

end Apart

/-! ## Sorting -/

theorem perm_insertByStart (t : Token) (us : List Token) : (insertByStart t us).Perm (t :: us) := by
  induction us with
  | nil => exact .refl _
  | cons u us ih =>
    rw [insertByStart]
    split
    · exact .refl _
    · exact (ih.cons u).trans (.swap t u us)

theorem perm_sortByStart (tokens : List Token) : (sortByStart tokens).Perm tokens := by
  suffices h : ∀ sorted : List Token,
      (tokens.foldl (fun sorted t => insertByStart t sorted) sorted).Perm (sorted ++ tokens) from
    h []
  induction tokens with
  | nil => simp
  | cons t tokens ih =>
    intro sorted
    have hfirst := (perm_insertByStart t sorted).append_right tokens
    exact (ih _).trans (hfirst.trans List.perm_middle.symm)

theorem pairwise_insertByStart (t : Token) {us : List Token}
    (h : us.Pairwise fun a b => a.span.start ≤ b.span.start) :
    (insertByStart t us).Pairwise fun a b => a.span.start ≤ b.span.start := by
  induction us with
  | nil => exact List.pairwise_singleton _ _
  | cons u us ih =>
    obtain ⟨hu, hus⟩ := List.pairwise_cons.mp h
    rw [insertByStart]
    split
    · rename_i hlt
      refine List.pairwise_cons.mpr ⟨?_, h⟩
      intro v hv
      rcases List.mem_cons.mp hv with rfl | hv
      · omega
      · have hle := hu v hv
        omega
    · refine List.pairwise_cons.mpr ⟨?_, ih hus⟩
      intro v hv
      rcases List.mem_cons.mp ((perm_insertByStart t us).mem_iff.mp hv) with rfl | hv
      · omega
      · exact hu v hv

theorem pairwise_sortByStart (tokens : List Token) :
    (sortByStart tokens).Pairwise fun a b => a.span.start ≤ b.span.start := by
  suffices h : ∀ sorted : List Token, (sorted.Pairwise fun a b => a.span.start ≤ b.span.start) →
      (tokens.foldl (fun sorted t => insertByStart t sorted) sorted).Pairwise
        fun a b => a.span.start ≤ b.span.start from
    h [] .nil
  induction tokens with
  | nil => exact fun _ h => h
  | cons t tokens ih => exact fun sorted h => ih _ (pairwise_insertByStart t h)

end Token

/-! ## The tokens of a line -/

namespace Finder

theorem apart_classify (finders : List Finder) (line : Text) :
    Token.Apart line.length (classify finders line) :=
  ((Token.apart_nil line.length).finders finders).perm (Token.perm_sortByStart _)

/-- Each token ends before the next one starts. -/
theorem pairwise_classify (finders : List Finder) (line : Text) :
    (classify finders line).Pairwise fun a b => a.span.stop ≤ b.span.start := by
  have hapart := apart_classify finders line
  have hsorted : (classify finders line).Pairwise fun a b => a.span.start ≤ b.span.start :=
    Token.pairwise_sortByStart _
  refine (hsorted.and hapart.clear).imp_of_mem ?_
  intro a b ha hb hab
  obtain ⟨hle, hclear⟩ := hab
  have hpos := (hapart.inside b hb).1
  rcases Token.clear_iff.mp hclear with hstop | hstop
  · omega
  · exact hstop

end Finder

theorem apart_classify (rules : List Rule) (line : Text) :
    Token.Apart line.length (classify rules line) := by
  rw [classify_eq_finders]
  exact Finder.apart_classify _ line

/-! ## Where tokens come from -/

theorem Token.mem_addAll {category : Category} {spans : List Span} {tokens : List Token}
    {t : Token} (ht : t ∈ spans.foldl (Token.add category) tokens) :
    t ∈ tokens ∨ t.category = category ∧ t.span ∈ spans := by
  induction spans generalizing tokens with
  | nil => exact .inl ht
  | cons s spans ih =>
    rcases ih ht with hadd | ⟨hcategory, hspan⟩
    · unfold Token.add at hadd
      split at hadd
      · exact .inl hadd
      · rcases List.mem_append.mp hadd with hold | hnew
        · exact .inl hold
        · rw [List.mem_singleton.mp hnew]
          exact .inr ⟨rfl, List.mem_cons_self⟩
    · exact .inr ⟨hcategory, List.mem_cons_of_mem s hspan⟩

theorem Token.filter_addAll {category other : Category} (h : other ≠ category)
    (spans : List Span) (tokens : List Token) :
    (spans.foldl (Token.add other) tokens).filter (·.category = category)
      = tokens.filter (·.category = category) := by
  induction spans generalizing tokens with
  | nil => rfl
  | cons s spans ih =>
    rw [List.foldl_cons, ih, Token.add]
    split
    · rfl
    · simp [List.filter_append, h]

theorem Token.filter_addRules {category : Category} {rules : List Rule}
    (h : ∀ rule ∈ rules, rule.category ≠ category) (line : Text) (tokens : List Token) :
    (rules.foldl (Token.addRule line) tokens).filter (·.category = category)
      = tokens.filter (·.category = category) := by
  induction rules generalizing tokens with
  | nil => rfl
  | cons rule rules ih =>
    rw [List.foldl_cons, ih fun other hother => h other (List.mem_cons_of_mem rule hother)]
    exact Token.filter_addAll (h rule List.mem_cons_self) _ tokens

/-- The tokens of a category that only the first rule has are those it makes by itself. -/
theorem filter_classify_perm {rule : Rule} {rules : List Rule}
    (h : ∀ other ∈ rules, other.category ≠ rule.category) (line : Text) :
    ((classify (rule :: rules) line).filter (·.category = rule.category)).Perm
      (Token.addRule line [] rule) := by
  have hfirst : (Token.addRule line [] rule).filter (·.category = rule.category)
      = Token.addRule line [] rule := by
    rw [List.filter_eq_self]
    intro t ht
    have horigin := (Token.mem_addAll ht).resolve_left List.not_mem_nil
    exact decide_eq_true horigin.1
  have hperm := (Token.perm_sortByStart ((rule :: rules).foldl (Token.addRule line) [])).filter
    (·.category = rule.category)
  rwa [List.foldl_cons, Token.filter_addRules h, hfirst] at hperm

end JadeEditor.Line
