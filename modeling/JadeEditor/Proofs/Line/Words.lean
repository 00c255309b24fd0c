import JadeEditor.Proofs.Line.Tokens

/-!
# Words that stand alone

A rule for words takes the first word that fits at a column and goes on behind it. Since a
word may have no word unit next to it on either side, it fills a whole run of word units:
no other word overlaps it, nothing can start inside it, and at most one word fits at a
column. So the rule finds every word that stands alone and nothing else, whatever the order
of its choices is.
-/

namespace JadeEditor.Line

set_option autoImplicit false

open CodeUnit

theorem isSpace_eq_false_of_isWord {c : CodeUnit} (h : c.isWord) : c.isSpace = false := by
  rw [Bool.eq_false_iff]
  intro hspace
  simp only [isWord, isNameStart, isUpper, isLower, isDigit, isSpace, underscore, Bool.or_eq_true,
    Bool.and_eq_true, decide_eq_true_eq, beq_iff_eq, UInt16.le_iff_toNat_le, ← UInt16.toNat_inj,
    UInt16.reduceToNat] at h hspace
  omega

/-- The unit to the left of column `k`; `before` is the one to the left of the text. -/
def leftOf (before : Option CodeUnit) (t : Text) : Nat → Option CodeUnit
  | 0 => before
  | k + 1 => t[k]?

/-- The word is at column `k` of the text, and the units next to it are no word units. -/
structure StandsAlone (before : Option CodeUnit) (t word : Text) (k : Nat) : Prop where
  here : word <+: t.drop k
  left : ∀ c, leftOf before t k = some c → ¬ c.isWord
  right : ∀ c, t[k + word.length]? = some c → ¬ c.isWord

/-- A text of word units that is not empty. -/
structure IsWordText (word : Text) : Prop where
  nonempty : word ≠ []
  units : ∀ c ∈ word, c.isWord

theorem standsAlone_cons_succ {before : Option CodeUnit} {c : CodeUnit} {t word : Text} {k : Nat} :
    StandsAlone before (c :: t) word (k + 1) ↔ StandsAlone (some c) t word k := by
  have hleft : leftOf before (c :: t) (k + 1) = leftOf (some c) t k := by cases k <;> rfl
  have hright : (c :: t)[k + 1 + word.length]? = t[k + word.length]? := by
    rw [Nat.add_right_comm, List.getElem?_cons_succ]
  constructor
  · rintro ⟨hhere, hl, hr⟩
    exact ⟨hhere, hleft ▸ hl, hright ▸ hr⟩
  · rintro ⟨hhere, hl, hr⟩
    exact ⟨hhere, hleft.symm ▸ hl, hright.symm ▸ hr⟩

/-! ## Two words in one text -/

namespace StandsAlone

variable {before : Option CodeUnit} {t v w : Text} {i j : Nat}

theorem getElem? (h : StandsAlone before t w i) {n : Nat} (hn : n < w.length) :
    t[i + n]? = w[n]? := by
  obtain ⟨rest, hrest⟩ := h.here
  rw [← List.getElem?_drop, ← hrest, List.getElem?_append_left hn]

/-- A unit inside the word is a word unit. -/
theorem isWord_inside (h : StandsAlone before t w i) (hw : IsWordText w) {n : Nat} (hi : i ≤ n)
    (hn : n < i + w.length) : ∃ c, t[n]? = some c ∧ c.isWord := by
  obtain ⟨m, rfl⟩ := Nat.exists_eq_add_of_le hi
  have hm : m < w.length := by omega
  refine ⟨w[m], ?_, hw.units _ (List.getElem_mem hm)⟩
  rw [h.getElem? hm, List.getElem?_eq_getElem hm]

/-- A word does not start inside another one. -/
theorem stop_le_of_lt (hv : StandsAlone before t v i) (hword : IsWordText v)
    (hw : StandsAlone before t w j) (hij : i < j) : i + v.length ≤ j := by
  obtain ⟨n, rfl⟩ := Nat.exists_eq_succ_of_ne_zero (Nat.ne_zero_of_lt hij)
  apply Nat.not_lt.mp
  intro hinside
  obtain ⟨c, hc, hword⟩ := hv.isWord_inside hword (n := n) (by omega) (by omega)
  exact hw.left c hc hword

theorem length_le (hv : StandsAlone before t v i) (hw : StandsAlone before t w i)
    (hword : IsWordText w) : w.length ≤ v.length := by
  apply Nat.not_lt.mp
  intro hlonger
  obtain ⟨c, hc, hword⟩ := hw.isWord_inside hword (n := i + v.length) (by omega) (by omega)
  exact hv.right c hc hword

theorem word_unique (hv : StandsAlone before t v i) (hw : StandsAlone before t w i)
    (hvword : IsWordText v) (hwword : IsWordText w) : v = w := by
  have hlength := Nat.le_antisymm (hw.length_le hv hvword) (hv.length_le hw hwword)
  exact (List.prefix_of_prefix_length_le hv.here hw.here (Nat.le_of_eq hlength)).eq_of_length hlength

/-- Words that overlap are one and the same. -/
theorem eq_of_overlaps (hv : StandsAlone before t v i) (hw : StandsAlone before t w j)
    (hvword : IsWordText v) (hwword : IsWordText w)
    (h : Span.overlaps ⟨i, i + v.length⟩ ⟨j, j + w.length⟩ = true) : i = j ∧ v = w := by
  simp only [Span.overlaps, Bool.and_eq_true, decide_eq_true_eq] at h
  rcases Nat.lt_trichotomy i j with hij | rfl | hji
  · have hapart := hv.stop_le_of_lt hvword hw hij
    omega
  · exact ⟨rfl, hv.word_unique hw hvword hwword⟩
  · have hapart := hw.stop_le_of_lt hwword hv hji
    omega

end StandsAlone

/-! ## The match at a column -/

namespace Pattern

variable {before : Option CodeUnit} {t : Text} {words : List Text}

theorem isBoundary_isWord {c : CodeUnit} (hc : c.isWord) (o : Option CodeUnit) :
    (isBoundary o (some c) = true ↔ ∀ d, o = some d → ¬ d.isWord)
      ∧ (isBoundary (some c) o = true ↔ ∀ d, o = some d → ¬ d.isWord) := by
  cases o <;> simp [isBoundary, hc]

theorem wordAt_iff {w : Text} (hw : IsWordText w) :
    wordAt false t w = true ↔ w <+: t ∧ ∀ c, t[w.length]? = some c → ¬ c.isWord := by
  have hlast := hw.units _ (List.getLast_mem hw.nonempty)
  simp only [wordAt, Bool.false_and, Bool.or_false, Bool.and_eq_true, beq_iff_eq,
    List.getLast?_eq_some_getLast hw.nonempty, List.head?_drop]
  rw [(isBoundary_isWord hlast _).2, List.prefix_iff_eq_take, eq_comm]

theorem standsAlone_zero_iff {w : Text} (hw : IsWordText w) :
    StandsAlone before t w 0 ↔ isBoundary before t.head? = true ∧ wordAt false t w = true := by
  rw [wordAt_iff hw]
  have hstart (hhere : w <+: t) :
      isBoundary before t.head? = true ↔ ∀ c, before = some c → ¬ c.isWord := by
    obtain ⟨rest, rfl⟩ := hhere
    rw [List.head?_append, List.head?_eq_some_head hw.nonempty]
    exact (isBoundary_isWord (hw.units _ (List.head_mem hw.nonempty)) _).1
  constructor
  · rintro ⟨hhere, hleft, hright⟩
    rw [Nat.zero_add] at hright
    exact ⟨(hstart hhere).mpr hleft, hhere, hright⟩
  · rintro ⟨hboundary, hhere, hright⟩
    refine ⟨hhere, (hstart hhere).mp hboundary, ?_⟩
    rwa [Nat.zero_add]

/-- Only one of the words fits, so it does not matter which of them is tried first. -/
theorem matchAt_word_iff (hwords : ∀ w ∈ words, IsWordText w) {m : Match} :
    (Pattern.word words false).matchAt before t = some m
      ↔ ∃ w ∈ words, StandsAlone before t w 0 ∧ m = ⟨w.length, none⟩ := by
  simp only [matchAt]
  constructor
  · intro h
    split at h
    · rename_i hboundary
      obtain ⟨w, hfind, rfl⟩ := Option.map_eq_some_iff.mp h
      have hmem := List.mem_of_find?_eq_some hfind
      have hfits := List.find?_some hfind
      exact ⟨w, hmem, (standsAlone_zero_iff (hwords w hmem)).mpr ⟨hboundary, hfits⟩, rfl⟩
    · cases h
  · rintro ⟨w, hw, halone, rfl⟩
    obtain ⟨hboundary, hfits⟩ := (standsAlone_zero_iff (hwords w hw)).mp halone
    rw [if_pos hboundary]
    cases hfind : words.find? (wordAt false t) with
    | none => exact absurd hfits (List.find?_eq_none.mp hfind w hw)
    | some v =>
      have hv := List.mem_of_find?_eq_some hfind
      have hvalone := (standsAlone_zero_iff (hwords v hv)).mpr ⟨hboundary, List.find?_some hfind⟩
      rw [hvalone.word_unique halone (hwords v hv) (hwords w hw)]
      rfl

theorem matchAt_word_eq_none_iff (hwords : ∀ w ∈ words, IsWordText w) :
    (Pattern.word words false).matchAt before t = none
      ↔ ∀ w ∈ words, ¬ StandsAlone before t w 0 := by
  rw [Option.eq_none_iff_forall_ne_some]
  simp only [ne_eq, matchAt_word_iff hwords]
  constructor
  · exact fun h w hw halone => h _ ⟨w, hw, halone, rfl⟩
  · rintro h m ⟨w, hw, halone, -⟩
    exact h w hw halone

end Pattern

/-! ## All words of a line -/

/-- The rule for words of a category, which are to be found as they are written. -/
def Rule.ofWords (category : Category) (words : List Text) : Rule :=
  ⟨category, .word words false, .whole⟩

section Words

variable {category : Category} {words : List Text} (hwords : ∀ w ∈ words, IsWordText w)
include hwords

/-- Inside a run of word units there is nothing to be found, so passing over the rest of a
word makes no difference. -/
theorem spansFrom_words_skip {b : CodeUnit} (hb : b.isWord) {skip : Nat} {t : Text}
    (ht : ∀ c ∈ t.take skip, c.isWord) (column : Nat) :
    (Rule.ofWords category words).spansFrom (some b) column skip t
      = (Rule.ofWords category words).spansFrom (some b) column 0 t := by
  induction t generalizing b column skip with
  | nil => rfl
  | cons c t ih =>
    cases skip with
    | zero => rfl
    | succ n =>
      rw [List.take_succ_cons, List.forall_mem_cons] at ht
      have hnone : (Rule.ofWords category words).pattern.matchAt (some b) (c :: t) = none :=
        (Pattern.matchAt_word_eq_none_iff hwords).mpr fun w _ halone => halone.left b rfl hb
      simp only [Rule.spansFrom, hnone]
      exact ih ht.1 ht.2 (column + 1)

theorem spansFrom_words_cons_of_match {before : Option CodeUnit} {c : CodeUnit} {t w : Text}
    (hw : w ∈ words) (halone : StandsAlone before (c :: t) w 0) (column : Nat) :
    (Rule.ofWords category words).spansFrom before column 0 (c :: t)
      = ⟨column, column + w.length⟩
        :: (Rule.ofWords category words).spansFrom (some c) (column + 1) 0 t := by
  have hmatch : (Rule.ofWords category words).pattern.matchAt before (c :: t)
      = some ⟨w.length, none⟩ := (Pattern.matchAt_word_iff hwords).mpr ⟨w, hw, halone, rfl⟩
  have hword := hwords w hw
  obtain ⟨rest, hrest⟩ := halone.here
  obtain ⟨d, w, rfl⟩ := List.exists_cons_of_ne_nil hword.nonempty
  obtain ⟨rfl, rfl⟩ : d = c ∧ w ++ rest = t := List.cons.inj hrest
  have hunits : ∀ e ∈ (w ++ rest).take w.length, e.isWord := by
    rw [List.take_left]
    exact fun e he => hword.units e (List.mem_cons_of_mem d he)
  simp only [Rule.spansFrom, hmatch, List.length_cons, Nat.add_sub_cancel]
  rw [spansFrom_words_skip hwords (hword.units d List.mem_cons_self) hunits]
  rfl

theorem spansFrom_words_cons_of_none {before : Option CodeUnit} {c : CodeUnit} {t : Text}
    (hnone : ∀ w ∈ words, ¬ StandsAlone before (c :: t) w 0) (column : Nat) :
    (Rule.ofWords category words).spansFrom before column 0 (c :: t)
      = (Rule.ofWords category words).spansFrom (some c) (column + 1) 0 t := by
  have hmatch : (Rule.ofWords category words).pattern.matchAt before (c :: t) = none :=
    (Pattern.matchAt_word_eq_none_iff hwords).mpr hnone
  simp only [Rule.spansFrom, hmatch]

theorem mem_spansFrom_words_cons {before : Option CodeUnit} {column : Nat} {c : CodeUnit} {t : Text}
    {s : Span} : s ∈ (Rule.ofWords category words).spansFrom before column 0 (c :: t)
      ↔ (∃ w ∈ words, StandsAlone before (c :: t) w 0 ∧ s = ⟨column, column + w.length⟩)
        ∨ s ∈ (Rule.ofWords category words).spansFrom (some c) (column + 1) 0 t := by
  by_cases hsome : ∃ w ∈ words, StandsAlone before (c :: t) w 0
  · obtain ⟨w, hw, halone⟩ := hsome
    rw [spansFrom_words_cons_of_match hwords hw halone, List.mem_cons]
    refine or_congr_left ⟨fun hs => ⟨w, hw, halone, hs⟩, ?_⟩
    rintro ⟨v, hv, hvalone, rfl⟩
    rw [hvalone.word_unique halone (hwords v hv) (hwords w hw)]
  · have hnone : ∀ w ∈ words, ¬ StandsAlone before (c :: t) w 0 := fun w hw halone =>
      hsome ⟨w, hw, halone⟩
    rw [spansFrom_words_cons_of_none hwords hnone]
    exact (or_iff_right fun ⟨w, hw, halone, _⟩ => hnone w hw halone).symm

/-- The rule finds exactly the words that stand alone. -/
theorem mem_spansFrom_words_iff {before : Option CodeUnit} {column : Nat} {t : Text} {s : Span} :
    s ∈ (Rule.ofWords category words).spansFrom before column 0 t
      ↔ ∃ w ∈ words, ∃ k, StandsAlone before t w k
        ∧ s = ⟨column + k, column + k + w.length⟩ := by
  induction t generalizing before column with
  | nil =>
    simp only [Rule.spansFrom, List.not_mem_nil, false_iff]
    rintro ⟨w, hw, k, halone, -⟩
    have hempty := halone.here
    rw [List.drop_nil, List.prefix_nil] at hempty
    exact (hwords w hw).nonempty hempty
  | cons c t ih =>
    have hcolumn (k : Nat) : column + 1 + k = column + (k + 1) := by omega
    simp only [mem_spansFrom_words_cons hwords, ih, ← @standsAlone_cons_succ before,
      hcolumn]
    constructor
    · rintro (⟨w, hw, halone, hs⟩ | ⟨w, hw, k, halone, hs⟩)
      · exact ⟨w, hw, 0, halone, hs⟩
      · exact ⟨w, hw, k + 1, halone, hs⟩
    · rintro ⟨w, hw, k, halone, hs⟩
      cases k with
      | zero => exact .inl ⟨w, hw, halone, hs⟩
      | succ k => exact .inr ⟨w, hw, k, halone, hs⟩

end Words

end JadeEditor.Line
