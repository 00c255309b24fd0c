import JadeEditor.Proofs.Line.Tokens

/-!
# Which spans become tokens

The rules come to their turn one after the other, and the spans of a rule from left to
right. A span in its turn becomes a token unless a token is in its way, and a token
stays. So the tokens depend on the order of the rules alone: a span that is left out
meets a token of an earlier rule or of an earlier match, and further rules at the end
of the list take nothing away.
-/

namespace JadeEditor.Line

set_option autoImplicit false

/-- What the tokens of a line have to do with rules of some kind. A rule has a category and
finds its spans in some order, and `tokens` gives the tokens that a list of rules makes. -/
structure Prioritised {ρ : Type} (category : ρ → Category) (spans : ρ → List Span) (length : Nat)
    (tokens : List ρ → List Token) : Prop where
  inside : ∀ rules, ∀ t ∈ tokens rules, t.span.start < t.span.stop ∧ t.span.stop ≤ length
  ordered : ∀ rules, (tokens rules).Pairwise fun a b => a.span.stop ≤ b.span.start
  origin : ∀ rules, ∀ t ∈ tokens rules, ∃ rule ∈ rules, t.category = category rule
    ∧ t.span ∈ spans rule
  /-- A span in its turn becomes a token, or overlaps one that is owed to the rules before
  or to the matches before. -/
  turn : ∀ before rule after earlier s later, spans rule = earlier ++ s :: later →
    ⟨category rule, s⟩ ∈ tokens (before ++ rule :: after)
    ∨ ∃ t ∈ tokens (before ++ rule :: after), s.overlaps t.span
      ∧ (t ∈ tokens before
        ∨ t ∈ tokens (before ++ [rule]) ∧ t.category = category rule ∧ t.span ∈ earlier)
  kept : ∀ rules more, tokens rules ⊆ tokens (rules ++ more)

/-- Rules of one kind that are read as rules of another. -/
theorem Prioritised.comap {ρ σ : Type} {category : ρ → Category} {spans : ρ → List Span}
    {length : Nat} {tokens : List ρ → List Token} (h : Prioritised category spans length tokens)
    (read : σ → ρ) :
    Prioritised (fun rule => category (read rule)) (fun rule => spans (read rule)) length
      (fun rules => tokens (rules.map read)) where
  inside rules := h.inside (rules.map read)
  ordered rules := h.ordered (rules.map read)
  origin rules t ht := by
    obtain ⟨_, hmem, horigin⟩ := h.origin (rules.map read) t ht
    obtain ⟨rule, hrule, rfl⟩ := List.mem_map.mp hmem
    exact ⟨rule, hrule, horigin⟩
  turn before rule after earlier s later hspans := by
    simp only [List.map_append, List.map_cons, List.map_nil]
    exact h.turn _ (read rule) _ earlier s later hspans
  kept rules more := by
    rw [List.map_append]
    exact h.kept _ _

/-! ## Tokens stay -/

namespace Token

theorem subset_add (category : Category) (tokens : List Token) (s : Span) :
    tokens ⊆ add category tokens s := by
  unfold add
  split
  · exact List.Subset.refl tokens
  · exact List.subset_append_left tokens _

theorem subset_addAll (category : Category) (spans : List Span) (tokens : List Token) :
    tokens ⊆ spans.foldl (add category) tokens := by
  induction spans generalizing tokens with
  | nil => exact List.Subset.refl tokens
  | cons s spans ih =>
    intro t ht
    exact ih _ (subset_add category tokens s ht)

theorem mem_add_or_overlaps (category : Category) (tokens : List Token) (s : Span) :
    ⟨category, s⟩ ∈ add category tokens s ∨ ∃ t ∈ tokens, s.overlaps t.span = true := by
  unfold add
  split
  · rename_i hover
    exact .inr (List.any_eq_true.mp hover)
  · exact .inl (List.mem_append_right tokens (List.mem_singleton_self _))

end Token

namespace Finder

theorem subset_addFinders (line : Text) (finders : List Finder) (tokens : List Token) :
    tokens ⊆ finders.foldl (add line) tokens := by
  induction finders generalizing tokens with
  | nil => exact List.Subset.refl tokens
  | cons f finders ih =>
    intro t ht
    exact ih _ (Token.subset_addAll f.category _ tokens ht)

theorem mem_addFinders {line : Text} {finders : List Finder} {tokens : List Token} {t : Token}
    (ht : t ∈ finders.foldl (add line) tokens) :
    t ∈ tokens ∨ ∃ f ∈ finders, t.category = f.category ∧ t.span ∈ f.spans line := by
  induction finders generalizing tokens with
  | nil => exact .inl ht
  | cons f finders ih =>
    rcases ih ht with hmade | ⟨g, hg, horigin⟩
    · rcases Token.mem_addAll hmade with hold | horigin
      · exact .inl hold
      · exact .inr ⟨f, List.mem_cons_self, horigin⟩
    · exact .inr ⟨g, List.mem_cons_of_mem f hg, horigin⟩

theorem mem_classify {finders : List Finder} {line : Text} {t : Token} :
    t ∈ classify finders line ↔ t ∈ finders.foldl (add line) [] :=
  (Token.perm_sortByStart _).mem_iff

theorem classify_subset_append (finders more : List Finder) (line : Text) :
    classify finders line ⊆ classify (finders ++ more) line := by
  intro t ht
  rw [mem_classify, List.foldl_append]
  exact subset_addFinders line more _ (mem_classify.mp ht)

/-! ## Whose turn it is -/

/-- The tokens that are there when a finder behind `before` has taken the spans `earlier`. -/
def tokensAt (line : Text) (before : List Finder) (f : Finder) (earlier : List Span) : List Token :=
  earlier.foldl (Token.add f.category) (before.foldl (add line) [])

section Turn

variable {line : Text} {f : Finder} {earlier later : List Span} {s : Span}

theorem mem_classify_last (hspans : f.spans line = earlier ++ s :: later) (before : List Finder)
    {t : Token} :
    t ∈ classify (before ++ [f]) line
      ↔ t ∈ (s :: later).foldl (Token.add f.category) (tokensAt line before f earlier) := by
  rw [tokensAt, ← List.foldl_append, ← hspans, mem_classify, List.foldl_append]
  exact Iff.rfl

/-- What is there when a span comes to its turn stays to the end, and so does the token
that it becomes. -/
theorem turn_of_split (hspans : f.spans line = earlier ++ s :: later) (before after : List Finder) :
    ⟨f.category, s⟩ ∈ classify (before ++ f :: after) line
    ∨ ∃ t ∈ classify (before ++ f :: after) line, s.overlaps t.span
      ∧ (t ∈ classify before line
        ∨ t ∈ classify (before ++ [f]) line ∧ t.category = f.category ∧ t.span ∈ earlier) := by
  have hstays : classify (before ++ [f]) line ⊆ classify (before ++ f :: after) line := by
    have hsubset := classify_subset_append (before ++ [f]) after line
    rwa [List.append_assoc] at hsubset
  rcases Token.mem_add_or_overlaps f.category (tokensAt line before f earlier) s with
    htaken | ⟨t, ht, hover⟩
  · have hlast := (mem_classify_last hspans before).mpr (Token.subset_addAll _ later _ htaken)
    exact .inl (hstays hlast)
  · have hlast := (mem_classify_last hspans before).mpr (Token.subset_addAll _ (s :: later) _ ht)
    refine .inr ⟨t, hstays hlast, hover, ?_⟩
    rcases Token.mem_addAll ht with hbefore | ⟨hcategory, hspan⟩
    · exact .inl (mem_classify.mpr hbefore)
    · exact .inr ⟨hlast, hcategory, hspan⟩

end Turn

theorem prioritised (line : Text) :
    Prioritised Finder.category (fun f => f.spans line) line.length (fun fs => classify fs line) where
  inside finders := (apart_classify finders line).inside
  ordered finders := pairwise_classify finders line
  origin _ _ ht := (mem_addFinders (mem_classify.mp ht)).resolve_left List.not_mem_nil
  turn before _ after _ _ _ hspans := turn_of_split hspans before after
  kept finders more := classify_subset_append finders more line

end Finder

/-- The tokens of a line lie in it from left to right without overlap, each is a span of
some rule, every span that is no token met one in its turn, and further rules take
nothing away. So it is for any list of rules, and for any other ways of finding spans. -/
theorem tokens_are_prioritised (line : Text) :
    Prioritised Rule.category (fun rule => rule.spans line) line.length
        (fun rules => classify rules line)
      ∧ Prioritised Finder.category (fun f => f.spans line) line.length
        (fun finders => Finder.classify finders line) := by
  have hfinders := Finder.prioritised line
  have hrules := hfinders.comap Rule.finder
  refine ⟨?_, hfinders⟩
  simp only [classify_eq_finders]
  exact hrules

end JadeEditor.Line
