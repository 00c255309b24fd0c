import JadeEditor.Buffer.Document
import JadeEditor.Proofs.Line.Tokens
import JadeEditor.Proofs.Text.Lines

/-!
# Comments

The code of a line ends at its first two slashes, and the rest is a remark. The rule for
comments wants more: a comment runs to the end of the line, and no line terminator may
stand in it. The highlighted comment is therefore the remark just when the remark
holds no line terminator; a carriage return in it is enough to lose the comment.
-/

namespace JadeEditor.Line

set_option autoImplicit false

open CodeUnit

/-! ## Code and remark -/

/-- What the code of a line leaves out. -/
def remark (line : Text) : Text := line.drop (code line).length

theorem code_cons {c : CodeUnit} {t : Text} (h : ¬ (c = slash ∧ t.head? = some slash)) :
    code (c :: t) = c :: code t := by
  cases t with
  | nil => rfl
  | cons d t => exact if_neg fun hslash => h ⟨hslash.1, congrArg some hslash.2⟩

theorem code_slashes (t : Text) : code (slash :: slash :: t) = [] := if_pos ⟨rfl, rfl⟩

theorem remark_cons {c : CodeUnit} {t : Text} (h : ¬ (c = slash ∧ t.head? = some slash)) :
    remark (c :: t) = remark t := by
  rw [remark, code_cons h]
  rfl

theorem code_append_remark (line : Text) : code line ++ remark line = line := by
  induction line with
  | nil => rfl
  | cons c t ih =>
    by_cases hslash : c = slash ∧ t.head? = some slash
    · obtain ⟨rfl, hhead⟩ := hslash
      obtain ⟨u, rfl⟩ := List.head?_eq_some_iff.mp hhead
      rw [remark, code_slashes]
      rfl
    · rw [code_cons hslash, remark_cons hslash, List.cons_append, ih]

theorem length_code_le_length (line : Text) : (code line).length ≤ line.length := by
  have hcut := congrArg List.length (code_append_remark line)
  rw [List.length_append] at hcut
  omega

theorem getElem?_code {t : Text} {k : Nat} (h : k < (code t).length) : (code t)[k]? = t[k]? := by
  have hcut : (code t ++ remark t)[k]? = (code t)[k]? := List.getElem?_append_left h
  rw [← hcut, code_append_remark]

theorem code_eq_self_iff (line : Text) : code line = line ↔ remark line = [] := by
  have hcut := code_append_remark line
  constructor
  · intro h
    rwa [h, List.append_right_eq_self] at hcut
  · intro h
    rwa [h, List.append_nil] at hcut

/-! ## What the rule for comments finds -/

/-- Two slashes start the text and no line terminator is in it. -/
def StartsComment (t : Text) : Prop :=
  t.startsWith [slash, slash] = true ∧ ∀ d ∈ t, ¬ d.isLineTerminator

theorem matchAt_comment_of_starts {t : Text} (h : StartsComment t) (before : Option CodeUnit) :
    Pattern.comment.matchAt before t = some ⟨t.length, none⟩ := by
  have hnone : t.any isLineTerminator = false := List.any_eq_false.mpr h.2
  simp [Pattern.matchAt, h.1, hnone]

theorem starts_of_matchAt_comment {t : Text} {before : Option CodeUnit} {m : Match}
    (h : Pattern.comment.matchAt before t = some m) : StartsComment t ∧ m = ⟨t.length, none⟩ := by
  simp only [Pattern.matchAt, Bool.and_eq_true, Bool.not_eq_true'] at h
  split at h
  · rename_i hstart
    exact ⟨⟨hstart.1, List.any_eq_false.mp hstart.2⟩, (Option.some.inj h).symm⟩
  · cases h

theorem spansFrom_of_length_le (rule : Rule) (before : Option CodeUnit) (column : Nat) {skip : Nat}
    {rest : Text} (h : rest.length ≤ skip) : rule.spansFrom before column skip rest = [] := by
  induction rest generalizing before column skip with
  | nil => rfl
  | cons c rest ih =>
    cases skip with
    | zero => cases h
    | succ k => exact ih _ _ (Nat.le_of_succ_le_succ h)

/-- A match of the rule takes all that is left. -/
theorem spansFrom_comment_of_starts {c : CodeUnit} {t : Text} (h : StartsComment (c :: t))
    (before : Option CodeUnit) (column : Nat) :
    Rule.comment.spansFrom before column 0 (c :: t) = [⟨column, column + (c :: t).length⟩] := by
  have hmatch : Rule.comment.pattern.matchAt before (c :: t) = some ⟨(c :: t).length, none⟩ :=
    matchAt_comment_of_starts h before
  have hrest := spansFrom_of_length_le Rule.comment (some c) (column + 1) (Nat.le_refl t.length)
  simp only [Rule.spansFrom, hmatch]
  rw [List.length_cons, Nat.add_sub_cancel, hrest]
  rfl

theorem spansFrom_comment_of_not_starts {c : CodeUnit} {t : Text} (h : ¬ StartsComment (c :: t))
    (before : Option CodeUnit) (column : Nat) :
    Rule.comment.spansFrom before column 0 (c :: t)
      = Rule.comment.spansFrom (some c) (column + 1) 0 t := by
  have hmatch : Rule.comment.pattern.matchAt before (c :: t) = none := by
    rw [Option.eq_none_iff_forall_ne_some]
    intro m hm
    exact h (starts_of_matchAt_comment hm).1
  simp only [Rule.spansFrom, hmatch]

theorem spansFrom_comment (before : Option CodeUnit) (column : Nat) {line : Text}
    (h : ∀ c ∈ remark line, ¬ c.isLineTerminator) :
    Rule.comment.spansFrom before column 0 line
      = if remark line = [] then []
        else [⟨column + (code line).length, column + line.length⟩] := by
  induction line generalizing before column with
  | nil => rfl
  | cons c t ih =>
    by_cases hslash : c = slash ∧ t.head? = some slash
    · have hstart := (Text.startsWith_pair_cons slash slash c t).mpr hslash
      obtain ⟨rfl, hhead⟩ := hslash
      obtain ⟨u, rfl⟩ := List.head?_eq_some_iff.mp hhead
      have hremark : remark (slash :: slash :: u) = slash :: slash :: u := by
        rw [remark, code_slashes]
        rfl
      rw [hremark] at h
      rw [spansFrom_comment_of_starts ⟨hstart, h⟩, hremark, code_slashes]
      rfl
    · have hnot : ¬ StartsComment (c :: t) := fun hstart =>
        hslash ((Text.startsWith_pair_cons slash slash c t).mp hstart.1)
      rw [remark_cons hslash] at h ⊢
      rw [spansFrom_comment_of_not_starts hnot, ih (some c) (column + 1) h, code_cons hslash,
        List.length_cons, List.length_cons, Nat.add_right_comm, Nat.add_right_comm column 1]
      rfl

/-- A span of the rule holds no line terminator. -/
theorem terminator_not_mem_of_mem_spansFrom {before : Option CodeUnit} {column skip : Nat}
    {line : Text} {s : Span} (hs : s ∈ Rule.comment.spansFrom before column skip line) :
    ∃ k, s.start = column + k ∧ ∀ c ∈ line.drop k, ¬ c.isLineTerminator := by
  induction line generalizing before column skip with
  | nil => cases hs
  | cons c t ih =>
    have hmore {before : Option CodeUnit} {skip : Nat}
        (hs : s ∈ Rule.comment.spansFrom before (column + 1) skip t) :
        ∃ k, s.start = column + k ∧ ∀ d ∈ (c :: t).drop k, ¬ d.isLineTerminator := by
      obtain ⟨k, hk, hnone⟩ := ih hs
      exact ⟨k + 1, by omega, hnone⟩
    cases skip with
    | succ k => exact hmore hs
    | zero =>
      by_cases hstart : StartsComment (c :: t)
      · rw [spansFrom_comment_of_starts hstart] at hs
        rw [List.mem_singleton.mp hs]
        exact ⟨0, rfl, hstart.2⟩
      · rw [spansFrom_comment_of_not_starts hstart] at hs
        exact hmore hs

/-! ## Highlighted comments -/

def remarkToken (line : Text) : Token := ⟨.comment, ⟨(code line).length, line.length⟩⟩

/-- The one comment among the tokens of the line is its remark, there is none if there is no
remark, and all other tokens lie in the code. -/
structure HighlightsRemark (line : Text) : Prop where
  comments : (classify Rule.standard line).filter (·.category = .comment)
    = if code line = line then [] else [remarkToken line]
  others : ∀ t ∈ classify Rule.standard line, t.category ≠ .comment →
    t.span.stop ≤ (code line).length

theorem filter_comment_perm (line : Text) :
    ((classify Rule.standard line).filter (·.category = .comment)).Perm
      (Token.addRule line [] Rule.comment) := by
  have hothers : ∀ other ∈ [Rule.functionName, .keyword, .typeName],
      other.category ≠ Rule.comment.category := by decide
  exact filter_classify_perm hothers line

theorem filter_comment_eq {line : Text} (h : ∀ c ∈ remark line, ¬ c.isLineTerminator) :
    (classify Rule.standard line).filter (·.category = .comment)
      = if code line = line then [] else [remarkToken line] := by
  have hspans := spansFrom_comment none 0 h
  rw [Nat.zero_add, Nat.zero_add] at hspans
  have hperm := filter_comment_perm line
  rw [Token.addRule, Rule.spans, hspans] at hperm
  by_cases hcode : code line = line
  · rw [if_pos ((code_eq_self_iff line).mp hcode)] at hperm
    rw [if_pos hcode]
    exact hperm.eq_nil
  · rw [if_neg fun hremark => hcode ((code_eq_self_iff line).mpr hremark)] at hperm
    rw [if_neg hcode]
    exact hperm.eq_singleton

/-- A token that does not overlap the remark ends before it, since it cannot start at the
end of the line. -/
theorem stop_le_of_remarkToken_mem {line : Text}
    (hremark : remarkToken line ∈ classify Rule.standard line) {t : Token}
    (ht : t ∈ classify Rule.standard line) (hother : t.category ≠ .comment) :
    t.span.stop ≤ (code line).length := by
  have hapart := apart_classify Rule.standard line
  have hne : t ≠ remarkToken line := by
    rintro rfl
    exact hother rfl
  rcases Token.clear_iff.mp (hapart.clear.forall ht hremark hne) with hstop | hstop
  · have hbehind : line.length ≤ t.span.start := hstop
    obtain ⟨hpos, hend⟩ := hapart.inside t ht
    omega
  · exact hstop

/-- The comment that is highlighted is the remark of the line just when no line terminator
stands in the remark. -/
theorem highlightsRemark_iff (line : Text) :
    HighlightsRemark line ↔ ∀ c ∈ remark line, ¬ c.isLineTerminator := by
  by_cases hcode : code line = line
  · have hremark := (code_eq_self_iff line).mp hcode
    have hnone : ∀ c ∈ remark line, ¬ c.isLineTerminator := by
      rw [hremark]
      exact fun c hc => absurd hc List.not_mem_nil
    refine iff_of_true ⟨filter_comment_eq hnone, fun t ht _ => ?_⟩ hnone
    rw [hcode]
    exact ((apart_classify Rule.standard line).inside t ht).2
  · constructor
    · intro h
      have hcomments := h.comments
      rw [if_neg hcode] at hcomments
      have hmem := (filter_comment_perm line).mem_iff.mp (hcomments ▸ List.mem_singleton_self _)
      have hspan := (Token.mem_addAll hmem).resolve_left List.not_mem_nil
      obtain ⟨k, hk, hnone⟩ := terminator_not_mem_of_mem_spansFrom hspan.2
      have hstart : (code line).length = k := hk.trans (Nat.zero_add k)
      rw [remark, hstart]
      exact hnone
    · intro h
      have hcomments := filter_comment_eq h
      refine ⟨hcomments, fun t ht hother => stop_le_of_remarkToken_mem ?_ ht hother⟩
      have hmem := List.mem_singleton_self (remarkToken line)
      rw [if_neg hcode] at hcomments
      rw [← hcomments] at hmem
      exact (List.mem_filter.mp hmem).1

/-- In `// fn` with a carriage return behind it the remark is the whole line, yet no comment
is highlighted and the word in it is taken for a keyword. -/
theorem returned_remark_is_not_highlighted :
    let line : Text := ['/', '/', ' ', 'f', 'n', '\r'].map ofChar
    (Document.ofText line).lines = [line] ∧ lineFeed ∉ line ∧ remark line = line
      ∧ classify Rule.standard line = [⟨.keyword, ⟨3, 5⟩⟩] ∧ ¬ HighlightsRemark line := by
  intro line
  refine ⟨by decide, by decide, by decide, by decide, ?_⟩
  intro h
  exact absurd h.comments (by decide)

end JadeEditor.Line
