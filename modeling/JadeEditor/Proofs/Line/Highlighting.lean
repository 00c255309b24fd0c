import JadeEditor.Proofs.Line.Comment
import JadeEditor.Proofs.Line.Words
import Mathlib.Data.List.Sort
import Mathlib.Data.List.TakeWhile

/-!
# What is highlighted

The tokens of a line under the rules of the language, said without rules and matches. A line
claims its comment and the name of the function it defines, and these two never meet. What
is left over are the keywords and type names that stand alone and overlap neither of them.
-/

namespace JadeEditor.Line

set_option autoImplicit false

open CodeUnit

/-! ## The spans of one rule -/

theorem Pattern.capture_stop_le (p : Pattern) {before : Option CodeUnit} {rest : Text} {m : Match}
    (h : p.matchAt before rest = some m) {s : Span} (hs : m.capture = some s) :
    s.stop ≤ m.length := by
  cases p with
  | comment =>
    rw [(starts_of_matchAt_comment h).2] at hs
    cases hs
  | header =>
    simp only [matchAt] at h
    split at h
    · cases h
    · obtain ⟨header, -, rfl⟩ := Option.map_eq_some_iff.mp h
      obtain rfl := Option.some.inj hs
      simp only [Header.length]
      omega
  | word choices anyCase =>
    simp only [matchAt] at h
    split at h
    · obtain ⟨w, -, rfl⟩ := Option.map_eq_some_iff.mp h
      cases hs
    · cases h
  | digits =>
    obtain rfl := Option.some.inj h
    cases hs
  | optional lead tail =>
    cases rest with
    | nil => cases h
    | cons c rest =>
      simp only [matchAt] at h
      split at h
      · cases h
      split at h
      · obtain rfl := Option.some.inj h
        obtain rfl := Option.some.inj hs
        exact Nat.le_refl 2
      · obtain rfl := Option.some.inj h
        cases hs

theorem Part.stop_le_length {part : Part} {p : Pattern} {before : Option CodeUnit} {rest : Text}
    {m : Match} (h : p.matchAt before rest = some m) {s : Span} (hs : part.of m = some s) :
    s.stop ≤ m.length := by
  cases part with
  | whole =>
    obtain rfl := Option.some.inj hs
    exact Nat.le_refl _
  | capture => exact p.capture_stop_le h hs

namespace Rule

theorem le_start_of_mem_spansFrom (rule : Rule) {before : Option CodeUnit} {column skip : Nat}
    {t : Text} {s : Span} (hs : s ∈ rule.spansFrom before column skip t) :
    column + skip ≤ s.start := by
  induction t generalizing before column skip with
  | nil => cases hs
  | cons c t ih =>
    cases skip with
    | succ k =>
      have hrest : column + 1 + k ≤ s.start := ih hs
      omega
    | zero =>
      simp only [spansFrom] at hs
      split at hs
      · have hrest := ih hs
        omega
      · rcases List.mem_append.mp hs with hhere | hs
        · obtain ⟨found, -, rfl⟩ := List.mem_map.mp hhere
          exact Nat.le_add_right _ _
        · have hrest := ih hs
          omega

/-- Each span of a rule ends before the next one starts. -/
theorem pairwise_spansFrom (rule : Rule) (before : Option CodeUnit) (column skip : Nat) (t : Text) :
    (rule.spansFrom before column skip t).Pairwise fun a b => a.stop ≤ b.start := by
  induction t generalizing before column skip with
  | nil => exact .nil
  | cons c t ih =>
    cases skip with
    | succ k => exact ih _ _ _
    | zero =>
      simp only [spansFrom]
      split
      · exact ih _ _ _
      · rename_i m hmatch
        refine List.pairwise_append.mpr ⟨?_, ih _ _ _, ?_⟩
        · cases rule.part.of m with
          | none => exact .nil
          | some s => by_cases hs : s.start < s.stop <;> simp [hs]
        · intro a ha b hb
          obtain ⟨found, hfound, rfl⟩ := List.mem_map.mp ha
          obtain ⟨hpart, -⟩ := List.mem_filter.mp hfound
          have hstop := Part.stop_le_length hmatch (Option.mem_toList.mp hpart)
          have hstart := rule.le_start_of_mem_spansFrom hb
          simp only [Span.shift]
          omega

theorem mem_spans_comment_iff {line : Text} {s : Span} :
    s ∈ Rule.comment.spans line ↔ ∃ k, StartsComment (line.drop k)
      ∧ (∀ j < k, ¬ StartsComment (line.drop j)) ∧ s = ⟨k, line.length⟩ := by
  suffices h : ∀ (before : Option CodeUnit) (column : Nat) (t : Text),
      s ∈ Rule.comment.spansFrom before column 0 t ↔ ∃ k, StartsComment (t.drop k)
        ∧ (∀ j < k, ¬ StartsComment (t.drop j)) ∧ s = ⟨column + k, column + t.length⟩ by
    have hline := h none 0 line
    simp only [Nat.zero_add] at hline
    exact hline
  intro before column t
  induction t generalizing before column with
  | nil =>
    have hnot : ¬ StartsComment [] := fun hstart => absurd hstart.1 (by decide)
    simp [spansFrom, hnot]
  | cons c t ih =>
    by_cases hstart : StartsComment (c :: t)
    · rw [spansFrom_comment_of_starts hstart, List.mem_singleton]
      constructor
      · exact fun hs => ⟨0, hstart, fun j hj => absurd hj (Nat.not_lt_zero j), hs⟩
      · rintro ⟨k, -, hfirst, rfl⟩
        have hzero : k = 0 := Nat.eq_zero_of_not_pos fun hk => hfirst 0 hk hstart
        rw [hzero, Nat.add_zero]
    · rw [spansFrom_comment_of_not_starts hstart, ih]
      have hshift (k : Nat) : (⟨column + 1 + k, column + 1 + t.length⟩ : Span)
          = ⟨column + (k + 1), column + (c :: t).length⟩ := by
        rw [List.length_cons, Nat.add_right_comm, Nat.add_right_comm column 1]
        rfl
      constructor
      · rintro ⟨k, hk, hfirst, rfl⟩
        refine ⟨k + 1, hk, fun j hj => ?_, hshift k⟩
        cases j with
        | zero => exact hstart
        | succ j => exact hfirst j (Nat.lt_of_succ_lt_succ hj)
      · rintro ⟨k, hk, hfirst, rfl⟩
        cases k with
        | zero => exact absurd hk hstart
        | succ k => exact ⟨k, hk, fun j hj => hfirst (j + 1) (Nat.succ_lt_succ hj), (hshift k).symm⟩

end Rule

/-! ## The name in a header -/

namespace Header

variable {line : Text} {h : Header}

/-- White space before a name of word units. -/
structure Proper (h : Header) : Prop where
  gap : ∀ c ∈ h.gap, c.isSpace
  name : IsWordText h.name

theorem proper_of_parse? (hparse : parse? line = some h) : h.Proper := by
  match line with
  | [] => cases hparse
  | [_] => cases hparse
  | f :: n :: line =>
    simp only [parse?] at hparse
    split at hparse
    · split at hparse
      · rename_i hparts
        obtain rfl := Option.some.inj hparse
        refine ⟨fun c hc => List.mem_takeWhile_imp hc, ⟨?_, fun c hc => List.mem_takeWhile_imp hc⟩⟩
        intro hempty
        have hstart := hparts.2.2.2.1
        rw [show List.takeWhile isWord (line.dropWhile isSpace) = [] from hempty] at hstart
        cases hstart
      · cases hparse
    · cases hparse

theorem text_eq (h : Header) :
    h.text = utf16 "fn" ++ h.gap ++ h.name ++ (h.pad ++ openParen :: closeParen :: h.rest) := by
  simp only [text, List.append_assoc]
  rfl

/-- The gap is where the white space behind `fn` ends. -/
theorem length_gap {gap name rest : Text} (hgap : ∀ c ∈ gap, c.isSpace) (hname : IsWordText name) :
    ((gap ++ name ++ rest).takeWhile isSpace).length = gap.length := by
  have hstop : (name ++ rest).takeWhile isSpace = [] := by
    obtain ⟨c, more, rfl⟩ := List.exists_cons_of_ne_nil hname.nonempty
    have hc := isSpace_eq_false_of_isWord (hname.units c List.mem_cons_self)
    simp [hc]
  rw [List.append_assoc, List.takeWhile_append_of_pos hgap, hstop, List.append_nil]

/-- No slash stands in front of the end of the name. -/
theorem nameStop_le_of_startsComment (hparse : parse? line = some h) {k : Nat}
    (hk : StartsComment (line.drop k)) : h.nameStop ≤ k := by
  obtain ⟨hgap, hname⟩ := proper_of_parse? hparse
  have htext := (text_eq h).symm.trans (text_of_parse? hparse)
  have hslash : slash ∉ utf16 "fn" ++ h.gap ++ h.name := by
    simp only [List.mem_append, not_or]
    refine ⟨⟨by decide, fun hmem => ?_⟩, fun hmem => ?_⟩
    · exact absurd (hgap slash hmem) (by decide)
    · exact absurd (hname.units slash hmem) (by decide)
  have hlength : (utf16 "fn" ++ h.gap ++ h.name).length = h.nameStop := by
    simp only [List.length_append, nameStop, nameStart]
    rfl
  generalize utf16 "fn" ++ h.gap ++ h.name = front at hslash hlength htext
  apply Nat.not_lt.mp
  intro hinside
  have hne : front.drop k ≠ [] := List.drop_eq_nil_iff.not.mpr (by omega)
  obtain ⟨c, more, hdrop⟩ := List.exists_cons_of_ne_nil hne
  have hc : c ∈ front := List.mem_of_mem_drop (hdrop ▸ List.mem_cons_self)
  rw [← htext, List.drop_append_of_le_length (by omega), hdrop, List.cons_append] at hk
  rw [((Text.startsWith_pair_cons slash slash c _).mp hk.1).1] at hc
  exact hslash hc

end Header

theorem Rule.mem_spans_functionName_iff {line : Text} {s : Span} :
    s ∈ Rule.functionName.spans line
      ↔ ∃ h, Header.parse? line = some h ∧ s = ⟨h.nameStart, h.nameStop⟩ := by
  have hbehind (b : CodeUnit) (column skip : Nat) (t : Text) :
      Rule.functionName.spansFrom (some b) column skip t = [] := by
    induction t generalizing b column skip with
    | nil => rfl
    | cons c t ih => cases skip <;> exact ih _ _ _
  cases line with
  | nil => simp [spans, spansFrom, Header.parse?]
  | cons c t =>
    have hmatch : Rule.functionName.pattern.matchAt none (c :: t)
        = (Header.parse? (c :: t)).map fun h => ⟨h.length, some ⟨h.nameStart, h.nameStop⟩⟩ := rfl
    simp only [spans, spansFrom, hmatch, hbehind, List.append_nil]
    cases hparse : Header.parse? (c :: t) with
    | none => simp
    | some h =>
      have hpos : h.nameStart < h.nameStop :=
        Nat.lt_add_of_pos_right (List.length_pos_iff.mpr (Header.proper_of_parse? hparse).name.nonempty)
      simp [functionName, Part.of, hpos, Span.shift]

/-! ## The tokens of a rule in its turn -/

theorem Token.mem_addAll_iff {category : Category} {spans : List Span}
    (hspans : spans.Pairwise fun a b => a.stop ≤ b.start) {tokens : List Token} {t : Token} :
    t ∈ spans.foldl (add category) tokens ↔ t ∈ tokens
      ∨ t.category = category ∧ t.span ∈ spans ∧ ∀ u ∈ tokens, t.span.overlaps u.span = false := by
  induction spans generalizing tokens with
  | nil => simp
  | cons s spans ih =>
    obtain ⟨hs, hspans⟩ := List.pairwise_cons.mp hspans
    rw [List.foldl_cons, ih hspans, add]
    split
    · rename_i hover
      -- A span that meets a token that is there does not come up.
      obtain ⟨u, hu, hmeets⟩ := List.any_eq_true.mp hover
      refine or_congr_right (and_congr_right fun _ => ?_)
      rw [List.mem_cons]
      constructor
      · rintro ⟨hmem, hclear⟩
        exact ⟨.inr hmem, hclear⟩
      · rintro ⟨heq | hmem, hclear⟩
        · rw [← heq, hclear u hu] at hmeets
          cases hmeets
        · exact ⟨hmem, hclear⟩
    · rename_i hfree
      have hclear : ∀ u ∈ tokens, s.overlaps u.span = false := by
        simpa using hfree
      have hlater : ∀ r ∈ spans, r.overlaps s = false := by
        intro r hr
        rw [Span.overlaps, Bool.and_eq_false_iff, decide_eq_false_iff_not]
        exact .inl (Nat.not_lt.mpr (hs r hr))
      obtain ⟨tcategory, tspan⟩ := t
      simp only [List.mem_append, List.mem_cons, List.not_mem_nil, or_false, Token.mk.injEq]
      constructor
      · rintro ((hold | ⟨rfl, rfl⟩) | ⟨rfl, hmem, hall⟩)
        · exact .inl hold
        · exact .inr ⟨rfl, .inl rfl, hclear⟩
        · exact .inr ⟨rfl, .inr hmem, fun u hu => hall u (.inl hu)⟩
      · rintro (hold | ⟨rfl, rfl | hmem, hall⟩)
        · exact .inl (.inl hold)
        · exact .inl (.inr ⟨rfl, rfl⟩)
        · refine .inr ⟨rfl, hmem, ?_⟩
          rintro u (hu | rfl)
          · exact hall u hu
          · exact hlater tspan hmem

theorem Token.mem_addRule_iff {line : Text} {tokens : List Token} {rule : Rule} {t : Token} :
    t ∈ addRule line tokens rule ↔ t ∈ tokens
      ∨ t.category = rule.category ∧ t.span ∈ rule.spans line
        ∧ ∀ u ∈ tokens, t.span.overlaps u.span = false :=
  mem_addAll_iff (rule.pairwise_spansFrom none 0 0 line)

/-! ## What a line claims and what is left over -/

/-- What the line claims before its words: the comment, from the first column at which one
starts, and the name of the function it defines, where it stands behind `fn`. -/
inductive Claims (line : Text) : Token → Prop
  | comment {k : Nat} : StartsComment (line.drop k) → (∀ j < k, ¬ StartsComment (line.drop j)) →
      Claims line ⟨.comment, ⟨k, line.length⟩⟩
  | functionName {gap name rest : Text} : line = utf16 "fn" ++ gap ++ name ++ rest →
      (∀ c ∈ gap, c.isSpace) → definedName? line = some name →
      Claims line ⟨.functionName, ⟨2 + gap.length, 2 + gap.length + name.length⟩⟩

/-- The words of a category. -/
def Category.words : Category → List Text
  | .keyword => [utf16 "fn", utf16 "return"]
  | .typeName => [utf16 "i32"]
  | .comment | .functionName => []

/-- The tokens of a line: what it claims, and every word of a category that stands alone and
does not overlap that. -/
inductive Highlighted (line : Text) : Token → Prop
  | claimed {t : Token} : Claims line t → Highlighted line t
  | word {category : Category} {w : Text} {k : Nat} : w ∈ category.words →
      StandsAlone none line w k →
      (∀ t, Claims line t → Span.overlaps ⟨k, k + w.length⟩ t.span = false) →
      Highlighted line ⟨category, ⟨k, k + w.length⟩⟩

theorem isWordText_of_mem_words (category : Category) : ∀ w ∈ category.words, IsWordText w := by
  have hunits : ∀ w ∈ category.words, w ≠ [] ∧ w.all isWord = true := by
    cases category <;> decide
  exact fun w hw => ⟨(hunits w hw).1, List.all_eq_true.mp (hunits w hw).2⟩

namespace Header

variable {line : Text} {h : Header}

theorem claims_name (hparse : parse? line = some h) :
    Claims line ⟨.functionName, ⟨h.nameStart, h.nameStop⟩⟩ := by
  have htext := (text_of_parse? hparse).symm.trans (text_eq h)
  have hname : definedName? line = some h.name := congrArg (Option.map Header.name) hparse
  exact .functionName htext (proper_of_parse? hparse).gap hname

theorem eq_of_claimed (hparse : parse? line = some h) {gap name rest : Text}
    (hline : line = utf16 "fn" ++ gap ++ name ++ rest) (hgap : ∀ c ∈ gap, c.isSpace)
    (hname : definedName? line = some name) : gap.length = h.gap.length ∧ name = h.name := by
  have hsame : h.name = name := by
    rw [definedName?, hparse] at hname
    exact Option.some.inj hname
  obtain ⟨hspace, hword⟩ := proper_of_parse? hparse
  have htext := (text_eq h).symm.trans ((text_of_parse? hparse).trans hline)
  simp only [List.append_assoc, List.append_cancel_left_eq] at htext
  rw [← List.append_assoc, ← List.append_assoc gap] at htext
  rw [← length_gap hspace hword, htext, length_gap hgap (hsame ▸ hword)]
  exact ⟨rfl, hsame.symm⟩

end Header

/-- What is claimed is what the first two rules find. -/
theorem claims_iff {line : Text} {t : Token} : Claims line t
    ↔ t.category = .comment ∧ t.span ∈ Rule.comment.spans line
      ∨ t.category = .functionName ∧ t.span ∈ Rule.functionName.spans line := by
  obtain ⟨category, span⟩ := t
  rw [Rule.mem_spans_comment_iff, Rule.mem_spans_functionName_iff]
  constructor
  · rintro (⟨hk, hfirst⟩ | ⟨hline, hgap, hname⟩)
    · exact .inl ⟨rfl, _, hk, hfirst, rfl⟩
    · obtain ⟨h, hparse, -⟩ := Option.map_eq_some_iff.mp hname
      obtain ⟨hlength, rfl⟩ := Header.eq_of_claimed hparse hline hgap hname
      refine .inr ⟨rfl, h, hparse, ?_⟩
      rw [hlength]
      rfl
  · rintro (⟨rfl, k, hk, hfirst, rfl⟩ | ⟨rfl, h, hparse, rfl⟩)
    · exact .comment hk hfirst
    · exact Header.claims_name hparse

theorem mem_claimed_iff {line : Text} {t : Token} :
    t ∈ Token.addRule line (Token.addRule line [] Rule.comment) Rule.functionName
      ↔ Claims line t := by
  rw [Token.mem_addRule_iff, claims_iff]
  simp only [Token.mem_addRule_iff, List.not_mem_nil, false_or, IsEmpty.forall_iff, implies_true,
    and_true]
  refine or_congr_right (and_congr_right fun _ => and_iff_left_of_imp ?_)
  -- The comment starts behind the name.
  rintro hspan u ⟨-, hu⟩
  obtain ⟨h, hparse, hs⟩ := Rule.mem_spans_functionName_iff.mp hspan
  obtain ⟨k, hk, -, hcomment⟩ := Rule.mem_spans_comment_iff.mp hu
  have hstop := Header.nameStop_le_of_startsComment hparse hk
  rw [hs, hcomment, Span.overlaps, Bool.and_eq_false_iff, decide_eq_false_iff_not,
    decide_eq_false_iff_not]
  exact .inr (Nat.not_lt.mpr hstop)

/-! ## The words that are left over -/

theorem keyword_eq : Rule.keyword = Rule.ofWords .keyword Category.keyword.words := by
  have hwords : [['f', 'n'].map ofChar, ['r', 'e', 't', 'u', 'r', 'n'].map ofChar]
      = Category.keyword.words := by decide
  rw [← hwords]
  rfl

theorem typeName_eq : Rule.typeName = Rule.ofWords .typeName Category.typeName.words := by
  have hwords : [['i', '3', '2'].map ofChar] = Category.typeName.words := by decide
  rw [← hwords]
  rfl

theorem mem_spans_words_iff {category : Category} {line : Text} {s : Span} :
    s ∈ (Rule.ofWords category category.words).spans line
      ↔ ∃ w ∈ category.words, ∃ k, StandsAlone none line w k ∧ s = ⟨k, k + w.length⟩ := by
  have hspans := @mem_spansFrom_words_iff category _ (isWordText_of_mem_words category) none 0 line s
  simp only [Nat.zero_add] at hspans
  exact hspans

/-- Keywords and type names never meet. -/
theorem clear_of_keyword {line : Text} {r s : Span}
    (hr : r ∈ (Rule.ofWords .typeName Category.typeName.words).spans line)
    (hs : s ∈ (Rule.ofWords .keyword Category.keyword.words).spans line) :
    r.overlaps s = false := by
  obtain ⟨v, hv, i, hvalone, rfl⟩ := mem_spans_words_iff.mp hr
  obtain ⟨w, hw, j, hwalone, rfl⟩ := mem_spans_words_iff.mp hs
  apply Bool.eq_false_iff.mpr
  intro hover
  obtain ⟨-, rfl⟩ := hvalone.eq_of_overlaps hwalone (isWordText_of_mem_words _ v hv)
    (isWordText_of_mem_words _ w hw) hover
  have hapart : ∀ v ∈ Category.typeName.words, v ∉ Category.keyword.words := by decide
  exact hapart v hv hw

/-- The words of a category that do not meet what is claimed. -/
theorem highlighted_iff {line : Text} {t : Token} : Highlighted line t
    ↔ Claims line t ∨ ∃ category, t.category = category
      ∧ t.span ∈ (Rule.ofWords category category.words).spans line
      ∧ ∀ u, Claims line u → t.span.overlaps u.span = false := by
  simp only [mem_spans_words_iff]
  constructor
  · rintro (hclaims | ⟨hw, halone, hfree⟩)
    · exact .inl hclaims
    · exact .inr ⟨_, rfl, ⟨_, hw, _, halone, rfl⟩, hfree⟩
  · obtain ⟨category, span⟩ := t
    rintro (hclaims | ⟨_, rfl, ⟨w, hw, k, halone, rfl⟩, hfree⟩)
    · exact .claimed hclaims
    · exact .word hw halone hfree

theorem mem_classify_standard_iff {line : Text} {t : Token} :
    t ∈ classify Rule.standard line ↔ Highlighted line t := by
  have hclaimed : ∀ u, u ∈ [Rule.comment, Rule.functionName].foldl (Token.addRule line) []
      ↔ Claims line u := fun u => mem_claimed_iff
  have hturns : Rule.standard.foldl (Token.addRule line) []
      = [Rule.keyword, Rule.typeName].foldl (Token.addRule line)
        ([Rule.comment, Rule.functionName].foldl (Token.addRule line) []) := rfl
  generalize [Rule.comment, Rule.functionName].foldl (Token.addRule line) [] = claimed
    at hclaimed hturns
  rw [classify, (Token.perm_sortByStart _).mem_iff, highlighted_iff, hturns, keyword_eq, typeName_eq]
  simp only [List.foldl_cons, List.foldl_nil, Token.mem_addRule_iff, hclaimed]
  constructor
  · rintro ((hclaims | ⟨hcategory, hspan, hfree⟩) | ⟨hcategory, hspan, hfree⟩)
    · exact .inl hclaims
    · exact .inr ⟨.keyword, hcategory, hspan, hfree⟩
    · exact .inr ⟨.typeName, hcategory, hspan, fun u hu => hfree u (.inl hu)⟩
  · rintro (hclaims | ⟨category, hcategory, hspan, hfree⟩)
    · exact .inl (.inl hclaims)
    · cases category with
      | keyword => exact .inl (.inr ⟨hcategory, hspan, hfree⟩)
      | typeName =>
        refine .inr ⟨hcategory, hspan, ?_⟩
        rintro u (hclaims | ⟨-, hu, -⟩)
        · exact hfree u hclaims
        · exact clear_of_keyword hspan hu
      | comment | functionName =>
        obtain ⟨w, hw, -⟩ := mem_spans_words_iff.mp hspan
        exact absurd hw List.not_mem_nil

/-- The tokens of a line are the list of all that is highlighted in it, sorted by where it
starts, and no other list is. -/
theorem classify_standard_eq_iff (line : Text) (tokens : List Token) :
    classify Rule.standard line = tokens
      ↔ (tokens.Pairwise fun a b => a.span.start < b.span.start)
        ∧ ∀ t, t ∈ tokens ↔ Highlighted line t := by
  have hsorted : (classify Rule.standard line).Pairwise fun a b => a.span.start < b.span.start := by
    rw [classify_eq_finders]
    refine (Finder.pairwise_classify _ line).imp_of_mem ?_
    intro a b ha _ hab
    have hpos := ((Finder.apart_classify _ line).inside a ha).1
    omega
  constructor
  · rintro rfl
    exact ⟨hsorted, fun t => mem_classify_standard_iff⟩
  · rintro ⟨hpairwise, hmem⟩
    have hirrefl : Std.Irrefl fun a b : Token => a.span.start < b.span.start :=
      ⟨fun a => Nat.lt_irrefl a.span.start⟩
    have hantisymm : Std.Antisymm fun a b : Token => a.span.start < b.span.start :=
      ⟨fun a b hab hba => absurd (Nat.lt_trans hab hba) (Nat.lt_irrefl a.span.start)⟩
    exact hsorted.eq_of_mem_iff hpairwise fun t => mem_classify_standard_iff.trans (hmem t).symm

end JadeEditor.Line
