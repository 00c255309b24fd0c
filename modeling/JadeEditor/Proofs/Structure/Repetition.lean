import JadeEditor.Proofs.Structure.FunctionLayout

/-!
# Repeated moves

Moving `m + n` times is moving `m` times and then `n` times from there, with one exception:
a block that is never closed takes back the moves of both parts. Going forward each move
passes an opening brace, and going back each one passes a definition, so however many are
asked for there are no more of them than the document has.
-/

namespace JadeEditor

set_option autoImplicit false

open CodeUnit

namespace Travel

/-! ## Parts of a walk -/

/-- The travel that begins with `steps` moves from `start` and goes on like `t`. -/
def behind (start : Position) (steps : Nat) (t : Travel) : Travel :=
  if t.outcome = .unbalanced then ⟨start, 0, .unbalanced⟩
  else ⟨t.position, steps + t.steps, t.outcome⟩

section Walk

variable {step : Position → Step} (start : Position) (steps : Nat) {p q : Position}

theorem walk_of_moved (h : step p = .moved q) (count : Nat) :
    walk step start steps p (count + 1) = walk step start (steps + 1) q count := by
  rw [walk, h]

theorem walk_of_nothing (h : step p = .nothing) (count : Nat) :
    walk step start steps p (count + 1) = ⟨p, steps, .exhausted⟩ := by
  rw [walk, h]

theorem walk_of_unclosed (h : step p = .unclosed) (count : Nat) :
    walk step start steps p (count + 1) = ⟨start, 0, .unbalanced⟩ := by
  rw [walk, h]

variable (step p)

theorem walk_add (m n : Nat) : walk step start steps p (m + n) =
    if (walk step start steps p m).outcome = .done then
      walk step start (steps + m) (walk step start steps p m).position n
    else walk step start steps p m := by
  induction m generalizing steps p with
  | zero => simp [walk]
  | succ m ih =>
    rw [Nat.add_right_comm]
    cases h : step p with
    | moved q =>
      rw [walk_of_moved start steps h, walk_of_moved start steps h, ih, Nat.add_right_comm,
        Nat.add_assoc]
    | nothing =>
      rw [walk_of_nothing start steps h, walk_of_nothing start steps h]
      rfl
    | unclosed =>
      rw [walk_of_unclosed start steps h, walk_of_unclosed start steps h]
      rfl

/-- The moves made before a walk only add to its number of steps. -/
theorem walk_eq_behind (here : Position) (more count : Nat) :
    walk step start (steps + more) p count
      = behind start steps (walk step here more p count) := by
  induction count generalizing p more with
  | zero => exact congrArg (fun n => Travel.mk p n .done) (Int.natCast_add _ _)
  | succ count ih =>
    cases h : step p with
    | moved q =>
      rw [walk_of_moved _ _ h, walk_of_moved _ _ h]
      exact ih q (more + 1)
    | nothing =>
      rw [walk_of_nothing _ _ h, walk_of_nothing _ _ h]
      exact congrArg (fun n => Travel.mk p n .exhausted) (Int.natCast_add _ _)
    | unclosed =>
      rw [walk_of_unclosed _ _ h, walk_of_unclosed _ _ h]
      rfl

/-- Each step that a walk counts is one that a shorter walk ends with. -/
theorem walk_moves (count : Nat) {i : Nat}
    (h : ((steps + i : Nat) : Int) < (walk step start steps p count).steps) :
    ∃ q r, walk step start steps p i = ⟨q, (steps + i : Nat), .done⟩ ∧ step q = .moved r
      ∧ walk step start steps p (i + 1) = ⟨r, (steps + (i + 1) : Nat), .done⟩ := by
  induction count generalizing steps p i with
  | zero =>
    simp only [walk] at h
    omega
  | succ count ih =>
    cases hstep : step p with
    | moved q =>
      -- The shorter walk takes the same first step, so both are followed together.
      cases i with
      | zero => exact ⟨p, q, rfl, hstep, walk_of_moved start steps hstep 0⟩
      | succ i =>
        have hsteps : ∀ k, steps + 1 + k = steps + (k + 1) := by omega
        rw [walk_of_moved start steps hstep, ← hsteps] at h
        obtain ⟨r, r', hbefore, hmoved, hafter⟩ := ih (steps + 1) q h
        rw [hsteps] at hbefore hafter
        refine ⟨r, r', ?_, hmoved, ?_⟩
        · rw [walk_of_moved start steps hstep, hbefore]
        · rw [walk_of_moved start steps hstep, hafter]
    | nothing =>
      simp only [walk_of_nothing start steps hstep] at h
      omega
    | unclosed =>
      simp only [walk_of_unclosed start steps hstep] at h
      omega

variable {step}

/-- A walk whose every move uses something up. -/
theorem walk_steps_le (left : Position → Nat)
    (hleft : ∀ p q, step p = .moved q → left q < left p) (count : Nat) :
    (walk step start steps p count).steps ≤ (steps + left p : Nat) := by
  induction count generalizing steps p with
  | zero => exact Int.ofNat_le.mpr (Nat.le_add_right _ _)
  | succ count ih =>
    cases h : step p with
    | moved q =>
      have hless := hleft p q h
      have hrest := ih (steps + 1) q
      rw [walk_of_moved start steps h]
      omega
    | nothing =>
      rw [walk_of_nothing start steps h]
      exact Int.ofNat_le.mpr (Nat.le_add_right _ _)
    | unclosed =>
      rw [walk_of_unclosed start steps h]
      exact Int.natCast_nonneg _

theorem walk_not_unbalanced (hstep : ∀ p, step p ≠ .unclosed) (count : Nat) :
    (walk step start steps p count).outcome ≠ .unbalanced := by
  induction count generalizing steps p with
  | zero => exact Outcome.noConfusion
  | succ count ih =>
    cases h : step p with
    | moved q =>
      rw [walk_of_moved start steps h]
      exact ih _ q
    | nothing =>
      rw [walk_of_nothing start steps h]
      exact Outcome.noConfusion
    | unclosed => exact absurd h (hstep p)

end Walk

/-! ## Travels of any length -/

/-- A travel that went through can be continued from where it ended, and one that ended
early ends there however many more repetitions are asked for. -/
structure Additive (travel : Position → Int → Travel) : Prop where
  goes_on : ∀ (c : Position) (m n : Nat), (travel c m).outcome = .done →
    travel c (m + n : Nat) = behind c m (travel (travel c m).position n)
  stops : ∀ (c : Position) (m n : Nat), (travel c m).outcome ≠ .done →
    travel c (m + n : Nat) = travel c m

/-- Each repetition that a travel counts leads from one position to another that is in
relation to it. -/
def Strides (R : Position → Position → Prop) (travel : Position → Int → Travel) : Prop :=
  ∀ (c : Position) (count : Int) (i : Nat), (i : Int) < (travel c count).steps →
    ∃ p q, travel c i = ⟨p, i, .done⟩ ∧ travel c (i + 1 : Nat) = ⟨q, (i + 1 : Nat), .done⟩ ∧ R p q

theorem additive_walk (step : Position → Step) :
    Additive fun c count => walk step c 0 c count.toNat where
  goes_on c m n hdone := by
    simp only [Int.toNat_natCast] at hdone ⊢
    rw [walk_add, if_pos hdone, Nat.zero_add]
    exact walk_eq_behind step c m _ _ 0 n
  stops c m n hearly := by
    simp only [Int.toNat_natCast] at hearly ⊢
    rw [walk_add, if_neg hearly]

theorem strides_walk {R : Position → Position → Prop} {step : Position → Step}
    (hstep : ∀ p q, step p = .moved q → R p q) :
    Strides R fun c count => walk step c 0 c count.toNat := by
  intro c count i hi
  obtain ⟨p, q, hbefore, hmoved, hafter⟩ :=
    walk_moves step c 0 c count.toNat (i := i) (by rw [Nat.zero_add]; exact hi)
  rw [Nat.zero_add] at hbefore hafter
  exact ⟨p, q, hbefore, hafter, hstep p q hmoved⟩

theorem steps_walk_le {step : Position → Step} {left : Position → Nat} {bound : Nat}
    (hleft : ∀ p q, step p = .moved q → left q < left p) (hbound : ∀ p, left p ≤ bound)
    (c : Position) (count : Int) : (walk step c 0 c count.toNat).steps ≤ (bound : Nat) := by
  have hsteps := walk_steps_le c 0 c left hleft count.toNat
  rw [Nat.zero_add] at hsteps
  exact hsteps.trans (Int.ofNat_le.mpr (hbound c))

end Travel

namespace Document

variable {d : Document} {p q : Position}

/-! ## Forward past an opening brace -/

/-- The opening braces at or behind a position. -/
def openingsFrom (d : Document) (p : Position) : List Brace :=
  d.braces.filter fun b => b.side = .opening ∧ p ≤ b.position

theorem openingsFrom_of_nextOpening? (h : d.nextOpening? p = some q) :
    p ≤ q ∧ d.codeAt? q = some openBrace
      ∧ ∃ more, d.openingsFrom p = ⟨.opening, q⟩ :: more := by
  rw [nextOpening?, ← List.head?_filter] at h
  obtain ⟨⟨side, q⟩, hb, rfl⟩ := Option.map_eq_some_iff.mp h
  obtain ⟨more, hmore⟩ := List.head?_eq_some_iff.mp hb
  obtain ⟨hmem, hopening⟩ := List.mem_filter.mp (List.mem_of_head? hb)
  obtain ⟨rfl, hp⟩ : side = .opening ∧ p ≤ q := by simpa using hopening
  exact ⟨hp, mem_braces_iff.mp hmem, more, hmore⟩

/-- What is still ahead of a later position. -/
theorem openingsFrom_of_lt (h : p < q) :
    d.openingsFrom q = (d.openingsFrom p).filter fun b => q ≤ b.position := by
  rw [openingsFrom, openingsFrom, List.filter_filter]
  apply List.filter_congr
  intro b _
  have hahead : q ≤ b.position → p ≤ b.position := Position.le_trans (Position.le_of_lt h)
  rw [Bool.eq_iff_iff]
  simp only [decide_eq_true_eq, Bool.and_eq_true]
  tauto

theorem exists_of_stepForward (h : d.stepForward p = .moved q) :
    ∃ o, d.nextOpening? p = some o ∧ d.closing? o = some q := by
  unfold stepForward at h
  cases hopening : d.nextOpening? p with
  | none =>
    rw [hopening] at h
    cases h
  | some o =>
    simp only [hopening] at h
    cases hclosing : d.closing? o with
    | none =>
      rw [hclosing] at h
      cases h
    | some r =>
      rw [hclosing] at h
      obtain rfl : r = q := Step.moved.inj h
      exact ⟨o, rfl, hclosing⟩

theorem lt_of_stepForward (h : d.stepForward p = .moved q) :
    p < q ∧ (d.openingsFrom q).length < (d.openingsFrom p).length := by
  obtain ⟨o, hopening, hclosing⟩ := exists_of_stepForward h
  obtain ⟨hpo, ho, more, hmore⟩ := openingsFrom_of_nextOpening? hopening
  have hoq := ((closing?_iff_closes ho).mp hclosing).after
  have hpq : p < q := by
    rw [Position.le_iff] at hpo
    rw [Position.lt_iff] at hoq ⊢
    omega
  refine ⟨hpq, ?_⟩
  have hpassed : ¬ q ≤ o := Position.not_le.mpr hoq
  rw [openingsFrom_of_lt hpq, hmore, List.filter_cons_of_neg (by simpa using hpassed),
    List.length_cons]
  exact Nat.lt_succ_of_le (List.length_filter_le _ _)

/-- The opening braces outside comments, counted in the text. -/
theorem countP_opening_braces (d : Document) : (d.braces.countP fun b => b.side = .opening)
    = (d.lines.flatMap Line.code).count openBrace := by
  have hsides : (d.braces.countP fun b => b.side = .opening)
      = (d.braces.map Brace.side).count .opening := by
    rw [List.count_eq_countP, List.countP_map]
    rfl
  have hcode : d.lines.flatMap Line.sides = (d.lines.flatMap Line.code).filterMap Brace.side? :=
    List.filterMap_flatMap.symm
  rw [hsides, braces, Brace.sides_ofLines, hcode, List.count_filterMap, List.count_eq_countP]
  apply List.countP_congr
  intro c _
  rw [beq_iff_eq, beq_iff_eq]
  exact Brace.side?_eq_some_iff

theorem length_openingsFrom_le (d : Document) (p : Position) :
    (d.openingsFrom p).length ≤ (d.lines.flatMap Line.code).count openBrace := by
  rw [← countP_opening_braces, openingsFrom, ← List.countP_eq_length_filter]
  apply List.countP_mono_left
  intro b _ hb
  simp only [decide_eq_true_eq] at hb ⊢
  exact hb.1

/-! ## Back past a definition -/

theorem lt_of_stepBack (h : d.stepBack p = .moved q) :
    q < p ∧ (d.definitionsBefore q).length < (d.definitionsBefore p).length := by
  rw [stepBack_eq] at h
  cases hlast : (d.definitionsBefore p).getLast? with
  | none =>
    rw [hlast] at h
    cases h
  | some e =>
    rw [hlast] at h
    obtain rfl : (⟨e.line, 0⟩ : Position) = q := Step.moved.inj h
    have hbefore := (List.mem_filter.mp (List.mem_of_getLast? hlast)).2
    rw [List.getLast?_eq_getElem?] at hlast
    have hshort := (List.getElem?_eq_some_iff.mp hlast).1
    rw [definitionsBefore_start hlast, List.length_take]
    exact ⟨by simpa using hbefore, by omega⟩

theorem length_definitionsBefore_le (d : Document) (p : Position) :
    (d.definitionsBefore p).length ≤ d.lines.countP Line.isDefinition := by
  have hall : ∀ (ts : List Text) (line offset : Nat),
      (Definition.collect line offset ts).length = ts.countP Line.isDefinition := by
    intro ts
    induction ts with
    | nil => exact fun _ _ => rfl
    | cons t ts ih =>
      intro line offset
      by_cases ht : Line.isDefinition t = true
      · obtain ⟨name, hcollect⟩ := Definition.collect_of_definition ht line offset ts
        rw [hcollect, List.length_cons, ih, List.countP_cons_of_pos ht]
      · rw [Definition.collect_of_other (Bool.eq_false_iff.mpr ht), ih, List.countP_cons_of_neg ht]
  rw [← hall d.lines 0 0]
  exact List.length_filter_le _ _

theorem stepBack_ne_unclosed (d : Document) (p : Position) : d.stepBack p ≠ .unclosed := by
  unfold stepBack
  split
  · exact Step.noConfusion
  · exact Step.noConfusion

end Document

/-- Numbers of repetitions add up in both directions, apart from the moves that a block that
is never closed takes back; going back there is no such block. Each repetition that is counted
moves strictly forward, or strictly back, so there are no more of them than opening braces
outside comments, or than lines that define a function. -/
theorem repetitions_add_up (d : Document) :
    Travel.Additive d.toBlockEnd ∧ Travel.Additive d.toDefinitionStart
      ∧ (∀ c count, (d.toDefinitionStart c count).outcome ≠ .unbalanced)
      ∧ Travel.Strides (fun p q => p < q) d.toBlockEnd
      ∧ Travel.Strides (fun p q => q < p) d.toDefinitionStart
      ∧ (∀ c count,
        (d.toBlockEnd c count).steps ≤ ((d.lines.flatMap Line.code).count openBrace : Nat))
      ∧ ∀ c count, (d.toDefinitionStart c count).steps ≤ (d.lines.countP Line.isDefinition : Nat) := by
  refine ⟨Travel.additive_walk d.stepForward, Travel.additive_walk d.stepBack, ?_,
    Travel.strides_walk fun p q h => (Document.lt_of_stepForward h).1,
    Travel.strides_walk fun p q h => (Document.lt_of_stepBack h).1,
    Travel.steps_walk_le (fun p q h => (Document.lt_of_stepForward h).2) d.length_openingsFrom_le,
    Travel.steps_walk_le (fun p q h => (Document.lt_of_stepBack h).2)
      d.length_definitionsBefore_le⟩
  intro c count
  exact Travel.walk_not_unbalanced c 0 c d.stepBack_ne_unclosed count.toNat

/-- A block, and behind it one that is never closed, which takes back the first move. -/
theorem unclosed_block_takes_back_first_move :
    let d := Document.ofLines [utf16 "fn a() \x7b", utf16 "\x7d", utf16 "\x7b // \x7d"]
    d.toBlockEnd ⟨0, 3⟩ 1 = ⟨⟨1, 0⟩, 1, .done⟩
      ∧ d.toBlockEnd ⟨0, 3⟩ 2 = ⟨⟨0, 3⟩, 0, .unbalanced⟩
      ∧ d.toBlockEnd ⟨0, 3⟩ 9 = ⟨⟨0, 3⟩, 0, .unbalanced⟩
      ∧ (d.toBlockEnd ⟨0, 3⟩ 9).steps ≤ 2 := by
  intro d
  obtain ⟨⟨hgoes, hstops⟩, -, -, -, -, hbound, -⟩ := repetitions_add_up d
  have hfirst : d.toBlockEnd ⟨0, 3⟩ 1 = ⟨⟨1, 0⟩, 1, .done⟩ := by decide +kernel
  have hsecond : d.toBlockEnd ⟨0, 3⟩ 2 = ⟨⟨0, 3⟩, 0, .unbalanced⟩ := by
    refine (hgoes ⟨0, 3⟩ 1 1 ?_).trans (by decide +kernel)
    decide +kernel
  refine ⟨hfirst, hsecond, ?_, (hbound ⟨0, 3⟩ 9).trans (by decide +kernel)⟩
  refine (hstops ⟨0, 3⟩ 2 7 ?_).trans hsecond
  decide +kernel

end JadeEditor
