import JadeEditor.Proofs.Structure.Balance

/-!
# Blocks inside blocks

Between the braces of a block stands a balanced word, and whatever is opened in a balanced
word is closed in it. So of two blocks either one ends before the other begins, or one
stands inside the other.
-/

namespace JadeEditor

set_option autoImplicit false

open CodeUnit

theorem Balanced.closes {word : List Side} (h : Balanced word) {front back : List Side}
    (hword : word = front ++ .opening :: back) :
    ∃ inner rest, back = inner ++ .closing :: rest ∧ Balanced inner := by
  induction h generalizing front back with
  | nil => exact absurd hword.symm (by simp)
  | @block inner rest hinner _ ihinner ihrest =>
    cases front with
    | nil => exact ⟨inner, rest, (List.cons.inj hword).2.symm, hinner⟩
    | cons s front =>
      have htail : inner ++ .closing :: rest = front ++ .opening :: back :=
        (List.cons.inj hword).2
      -- The brace in question is behind the first block, or inside it.
      rcases List.append_eq_append_iff.mp htail with ⟨middle, -, hbehind⟩ | ⟨middle, hin, hback⟩
      · cases middle with
        | nil => cases (List.cons.inj hbehind).1
        | cons c middle => exact ihrest (List.cons.inj hbehind).2
      · cases middle with
        | nil => cases (List.cons.inj hback).1
        | cons c middle =>
          obtain ⟨rfl, rfl⟩ := List.cons.inj hback
          obtain ⟨word, more, rfl, hbalanced⟩ := ihinner hin
          exact ⟨word, more ++ .closing :: rest, by simp, hbalanced⟩

namespace Document

variable {d : Document} {o₁ o₂ c₁ : Position}

/-- A block that is opened inside another one ends inside it. -/
theorem closing?_inside (h₁ : d.codeAt? o₁ = some openBrace) (h₂ : d.codeAt? o₂ = some openBrace)
    (hclosed : d.closing? o₁ = some c₁) (hbehind : o₁ < o₂) (hbefore : o₂ < c₁) :
    ∃ c₂, d.closing? o₂ = some c₂ ∧ c₂ < c₁ := by
  obtain ⟨earlier, word, later, hsplit, hword⟩ := (closing?_iff_split h₁).mp hclosed
  have hmem : (⟨.opening, o₂⟩ : Brace) ∈ word :=
    ((between_of_split hsplit).mem ⟨.opening, o₂⟩).mpr ⟨hbehind, hbefore, h₂⟩
  obtain ⟨us, vs, rfl⟩ := List.append_of_mem hmem
  rw [List.map_append, List.map_cons] at hword
  obtain ⟨inner, rest, hvs, hinner⟩ := hword.closes rfl
  obtain ⟨word, more, rfl, rfl, hmore⟩ := List.map_eq_append_iff.mp hvs
  obtain ⟨c, rest, rfl, hc, rfl⟩ := List.map_eq_cons_iff.mp hmore
  obtain ⟨side, c₂⟩ := c
  obtain rfl : side = .closing := hc
  refine ⟨c₂, ?_, before_of_split hsplit ⟨.closing, c₂⟩ (by simp)⟩
  apply (closing?_iff_split h₂).mpr
  refine ⟨earlier ++ ⟨.opening, o₁⟩ :: us, word, rest ++ ⟨.closing, c₁⟩ :: later, ?_, hinner⟩
  rw [hsplit]
  simp

theorem closing?_lt_of_not_inside (h₁ : d.codeAt? o₁ = some openBrace)
    (h₂ : d.codeAt? o₂ = some openBrace) (hclosed : d.closing? o₁ = some c₁)
    (hnot : ¬ o₂ < c₁) : c₁ < o₂ := by
  have hbrace := ((closing?_iff_closes h₁).mp hclosed).brace
  rcases Position.lt_or_eq_or_lt c₁ o₂ with h | rfl | h
  · exact h
  · rw [hbrace] at h₂
    exact absurd (Option.some.inj h₂) (by decide)
  · exact absurd h hnot

end Document

/-- Of two blocks that are opened one behind the other, the first ends before the second is
opened or the second ends before the first does, so no brace closes both. A block that is
opened inside one that is closed is closed. -/
theorem blocks_do_not_cross {d : Document} {o₁ o₂ : Position}
    (h₁ : d.codeAt? o₁ = some openBrace) (h₂ : d.codeAt? o₂ = some openBrace) (hlt : o₁ < o₂) :
    (∀ c₁ c₂, d.closing? o₁ = some c₁ → d.closing? o₂ = some c₂ → c₁ < o₂ ∨ c₂ < c₁)
      ∧ (∀ c, d.closing? o₁ = some c → d.closing? o₂ ≠ some c)
      ∧ ∀ c₁, d.closing? o₁ = some c₁ → o₂ < c₁ → ∃ c₂, d.closing? o₂ = some c₂ := by
  have hinside : ∀ c₁, d.closing? o₁ = some c₁ → o₂ < c₁ →
      ∃ c₂, d.closing? o₂ = some c₂ ∧ c₂ < c₁ :=
    fun c₁ hclosed => Document.closing?_inside h₁ h₂ hclosed hlt
  refine ⟨?_, ?_, ?_⟩
  · intro c₁ c₂ hclosed₁ hclosed₂
    by_cases hin : o₂ < c₁
    · obtain ⟨c, hclosed, hc⟩ := hinside c₁ hclosed₁ hin
      obtain rfl : c = c₂ := Option.some.inj (hclosed.symm.trans hclosed₂)
      exact .inr hc
    · exact .inl (Document.closing?_lt_of_not_inside h₁ h₂ hclosed₁ hin)
  · intro c hclosed₁ hclosed₂
    have hafter := ((Document.closing?_iff_closes h₂).mp hclosed₂).after
    obtain ⟨c', hclosed, hc⟩ := hinside c hclosed₁ hafter
    obtain rfl : c' = c := Option.some.inj (hclosed.symm.trans hclosed₂)
    exact Position.lt_irrefl c' hc
  · intro c₁ hclosed hin
    obtain ⟨c₂, hclosed₂, -⟩ := hinside c₁ hclosed hin
    exact ⟨c₂, hclosed₂⟩

/-- A block inside another one, with braces in comments on the way. -/
theorem inner_block_ends_first :
    let d := Document.ofLines [utf16 "fn a() \x7b // \x7d", utf16 "if \x7b // \x7b",
      utf16 "// \x7d", utf16 "\x7d \x7d"]
    ((⟨3, 2⟩ : Position) < ⟨1, 3⟩ ∨ (⟨3, 0⟩ : Position) < ⟨3, 2⟩)
      ∧ d.closing? ⟨1, 3⟩ ≠ some ⟨3, 2⟩ ∧ ∃ c, d.closing? ⟨1, 3⟩ = some c := by
  intro d
  have hfirst : d.codeAt? ⟨0, 7⟩ = some openBrace := by decide +kernel
  have hsecond : d.codeAt? ⟨1, 3⟩ = some openBrace := by decide +kernel
  obtain ⟨hapart, hown, hends⟩ := blocks_do_not_cross hfirst hsecond (by decide)
  have houter : d.closing? ⟨0, 7⟩ = some ⟨3, 2⟩ := by decide +kernel
  have hinner : d.closing? ⟨1, 3⟩ = some ⟨3, 0⟩ := by decide +kernel
  exact ⟨hapart _ _ houter hinner, hown _ houter, hends _ houter (by decide)⟩

end JadeEditor
