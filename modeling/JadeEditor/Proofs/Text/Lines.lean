import JadeEditor.Buffer.LineEnding

/-!
# Cutting a text into lines and joining them

Lines without line feeds that are joined with carriage return and line feed come
back when the text is cut. Joined with line feeds alone they come back if none but
the last ends in a carriage return, and such are the lines of a text in which no
line feed stands behind a carriage return.
-/

namespace JadeEditor.Text

set_option autoImplicit false

open CodeUnit

/-- None of the lines contains a line feed. -/
def Unbroken (ls : List Text) : Prop := ∀ l ∈ ls, lineFeed ∉ l

/-- No line but the last ends in a carriage return. -/
def Unreturned (ls : List Text) : Prop := ∀ l ∈ ls.dropLast, l.getLast? ≠ some carriageReturn

/-! ## Cutting -/

@[simp] theorem lines_nil : lines [] = [[]] := rfl

@[simp] theorem lines_lineFeed (t : Text) : lines (lineFeed :: t) = [] :: lines t := rfl

theorem lines_cons {c : CodeUnit} {t l : Text} {ls : List Text} (h : lines t = l :: ls)
    (hfeed : c ≠ lineFeed) (hreturn : ¬ (c = carriageReturn ∧ t.head? = some lineFeed)) :
    lines (c :: t) = (c :: l) :: ls := by
  obtain ⟨rfl, rfl⟩ := List.cons.inj h
  unfold lines
  simp only [splitLines, if_neg hfeed, if_neg hreturn]

/-- What one more unit in front of a text does to its lines: a line feed starts a new
line, a carriage return before one is dropped, and any other unit joins the first line. -/
theorem lines_cons_cases (c : CodeUnit) (t : Text) :
    (c = lineFeed ∧ lines (c :: t) = [] :: lines t)
    ∨ (c = carriageReturn ∧ t.head? = some lineFeed ∧ lines (c :: t) = lines t)
    ∨ (c ≠ lineFeed ∧ ¬ (c = carriageReturn ∧ t.head? = some lineFeed)
      ∧ ∃ l ls, lines t = l :: ls ∧ lines (c :: t) = (c :: l) :: ls) := by
  by_cases hfeed : c = lineFeed
  · subst hfeed
    exact .inl ⟨rfl, rfl⟩
  by_cases hreturn : c = carriageReturn ∧ t.head? = some lineFeed
  · obtain ⟨rfl, hhead⟩ := hreturn
    obtain ⟨u, rfl⟩ := List.head?_eq_some_iff.mp hhead
    exact .inr (.inl ⟨rfl, rfl, rfl⟩)
  · exact .inr (.inr ⟨hfeed, hreturn, _, _, rfl, lines_cons rfl hfeed hreturn⟩)

theorem unbroken_lines (t : Text) : Unbroken (lines t) := by
  induction t with
  | nil => simp [Unbroken]
  | cons c t ih =>
    rcases lines_cons_cases c t with ⟨-, hlines⟩ | ⟨-, -, hlines⟩ | ⟨hc, -, l, ls, ht, hlines⟩
    · rw [hlines]
      simpa [Unbroken] using ih
    · rw [hlines]
      exact ih
    · rw [ht] at ih
      rw [hlines]
      simpa [Unbroken, Ne.symm hc] using ih

/-! ## Joining -/

@[simp] theorem unlines_singleton (ending : LineEnding) (l : Text) : unlines ending [l] = l := by
  rw [unlines, join, List.intercalate_singleton]

theorem unlines_cons_cons (ending : LineEnding) (l m : Text) (ls : List Text) :
    unlines ending (l :: m :: ls) = l ++ (ending.text ++ unlines ending (m :: ls)) := by
  rw [unlines, join, List.intercalate_cons_cons, List.append_assoc]
  rfl

@[simp] theorem lines_ending_append (ending : LineEnding) (t : Text) :
    lines (ending.text ++ t) = [] :: lines t := by
  cases ending <;> rfl

/-- The text behind a line may start with a line feed only if the line does not end in a
carriage return. -/
def Parted (l rest : Text) : Prop :=
  rest.head? = some lineFeed → l.getLast? ≠ some carriageReturn

section Parted

variable {c : CodeUnit} {l rest : Text}

theorem parted_nil (l : Text) : Parted l [] := fun h => by cases h

theorem Parted.of_cons (h : Parted (c :: l) rest) : Parted l rest := by
  intro hhead hlast
  apply h hhead
  rw [List.getLast?_cons, hlast]
  rfl

theorem Parted.not_return (h : Parted (c :: l) rest) (hl : lineFeed ∉ l) :
    ¬ (c = carriageReturn ∧ (l ++ rest).head? = some lineFeed) := by
  rintro ⟨rfl, hhead⟩
  cases l with
  | nil => exact h hhead rfl
  | cons d l => exact hl (Option.some.inj hhead ▸ List.mem_cons_self)

theorem lines_append {ls : List Text} (hl : lineFeed ∉ l) (h : Parted l rest)
    (hrest : lines rest = [] :: ls) : lines (l ++ rest) = l :: ls := by
  induction l with
  | nil => exact hrest
  | cons c l ih =>
    have hc : c ≠ lineFeed := fun heq => hl (heq ▸ List.mem_cons_self)
    have hl' : lineFeed ∉ l := fun hmem => hl (List.mem_cons_of_mem c hmem)
    exact lines_cons (ih hl' h.of_cons) hc (h.not_return hl')

end Parted

theorem lines_of_unbroken {l : Text} (hl : lineFeed ∉ l) : lines l = [l] := by
  have hend := lines_append hl (parted_nil l) lines_nil
  rwa [List.append_nil] at hend

theorem parted_ending {ending : LineEnding} {l m : Text} {ls : List Text}
    (h : ending = .lf → Unreturned (l :: m :: ls)) (rest : Text) :
    Parted l (ending.text ++ rest) := by
  cases ending with
  | lf => exact fun _ => h rfl l List.mem_cons_self
  | crlf => exact fun hhead => absurd (Option.some.inj hhead) (by decide)

/-- Joined lines come back, provided that, with line feeds alone, none but the last ends
in a carriage return. -/
theorem lines_unlines {ending : LineEnding} {ls : List Text} (hne : ls ≠ []) (h : Unbroken ls)
    (hreturn : ending = .lf → Unreturned ls) : lines (unlines ending ls) = ls := by
  induction ls with
  | nil => exact absurd rfl hne
  | cons l ls ih =>
    have hl : lineFeed ∉ l := h l List.mem_cons_self
    cases ls with
    | nil =>
      rw [unlines_singleton]
      exact lines_of_unbroken hl
    | cons m ls =>
      have hmore := ih (List.cons_ne_nil m ls) (fun k hk => h k (List.mem_cons_of_mem l hk))
        fun hlf k hk => hreturn hlf k (List.mem_cons_of_mem l hk)
      rw [unlines_cons_cons]
      apply lines_append hl (parted_ending hreturn _)
      rw [lines_ending_append, hmore]

/-! ## The ending of a text -/

/-- A line feed stands right behind a carriage return. -/
def HasReturn (t : Text) : Prop := has LineEnding.crlf.text t = true

theorem startsWith_pair_cons (a b c : CodeUnit) (t : Text) :
    startsWith (c :: t) [a, b] = true ↔ c = a ∧ t.head? = some b := by
  unfold startsWith
  cases t with
  | nil => simp [after?]
  | cons d t =>
    simp only [after?, List.head?_cons, Option.some.injEq, eq_comm (a := a), eq_comm (a := b)]
    by_cases hc : c = a <;> by_cases hd : d = b <;> simp [hc, hd]

/-- Two units occur next to each other at the start of a text or behind it. -/
theorem has_pair_cons (a b c : CodeUnit) (t : Text) :
    has [a, b] (c :: t) = true ↔ (c = a ∧ t.head? = some b) ∨ has [a, b] t = true := by
  rw [has, Bool.or_eq_true, startsWith_pair_cons]

theorem hasReturn_cons (c : CodeUnit) (t : Text) :
    HasReturn (c :: t) ↔ (c = carriageReturn ∧ t.head? = some lineFeed) ∨ HasReturn t :=
  has_pair_cons carriageReturn lineFeed c t

theorem not_hasReturn_append {l rest : Text} (hl : lineFeed ∉ l) (h : Parted l rest)
    (hrest : ¬ HasReturn rest) : ¬ HasReturn (l ++ rest) := by
  induction l with
  | nil => exact hrest
  | cons c l ih =>
    have hl' : lineFeed ∉ l := fun hmem => hl (List.mem_cons_of_mem c hmem)
    rw [List.cons_append, hasReturn_cons]
    rintro (hreturn | hmore)
    · exact h.not_return hl' hreturn
    · exact ih hl' h.of_cons hmore

theorem hasReturn_append (l : Text) {t : Text} (h : HasReturn t) : HasReturn (l ++ t) := by
  induction l with
  | nil => exact h
  | cons c l ih => exact (hasReturn_cons c (l ++ t)).mpr (.inr ih)

theorem one_lt_length_lines {t : Text} (h : HasReturn t) : 1 < (lines t).length := by
  induction t with
  | nil => cases h
  | cons c t ih =>
    rcases lines_cons_cases c t with ⟨-, hlines⟩ | ⟨-, hhead, hlines⟩ | ⟨-, hnot, l, ls, ht, hlines⟩
    · rw [hlines, List.length_cons]
      have hpos := List.length_pos_iff.mpr (lines_ne_nil t)
      omega
    · obtain ⟨u, rfl⟩ := List.head?_eq_some_iff.mp hhead
      rw [hlines, lines_lineFeed, List.length_cons]
      have hpos := List.length_pos_iff.mpr (lines_ne_nil u)
      omega
    · have hmore := ((hasReturn_cons c t).mp h).resolve_left hnot
      have hlong := ih hmore
      rw [ht] at hlong
      rw [hlines]
      exact hlong

theorem head?_of_lines_nil {t m : Text} {ls : List Text} (h : ¬ HasReturn t)
    (hlines : lines t = [] :: m :: ls) : t.head? = some lineFeed := by
  cases t with
  | nil => cases hlines
  | cons c t =>
    rcases lines_cons_cases c t with ⟨rfl, -⟩ | ⟨hc, hhead, -⟩ | ⟨-, -, l, ls', -, hcons⟩
    · rfl
    · exact absurd ((hasReturn_cons c t).mpr (.inl ⟨hc, hhead⟩)) h
    · rw [hcons] at hlines
      cases hlines

theorem unreturned_lines {t : Text} (h : ¬ HasReturn t) : Unreturned (lines t) := by
  induction t with
  | nil => simp [Unreturned]
  | cons c t ih =>
    have hmore : ¬ HasReturn t := fun hr => h ((hasReturn_cons c t).mpr (.inr hr))
    have hrest := ih hmore
    rcases lines_cons_cases c t with ⟨-, hlines⟩ | ⟨hc, hhead, -⟩ | ⟨-, hnot, l, ls, ht, hlines⟩
    · rw [hlines]
      simpa [Unreturned, List.dropLast_cons_of_ne_nil (lines_ne_nil t)] using hrest
    · exact absurd ((hasReturn_cons c t).mpr (.inl ⟨hc, hhead⟩)) h
    · rw [hlines]
      cases ls with
      | nil => simp [Unreturned]
      | cons m ls =>
        rw [ht] at hrest
        intro k hk hlast
        rcases List.mem_cons.mp hk with rfl | hk
        · cases l with
          | nil => exact hnot ⟨by simpa using hlast, head?_of_lines_nil hmore ht⟩
          | cons d l => exact hrest (d :: l) List.mem_cons_self hlast
        · exact hrest k (List.mem_cons_of_mem l hk) hlast

theorem not_hasReturn_unlines {ls : List Text} (h : Unbroken ls) (hreturn : Unreturned ls) :
    ¬ HasReturn (unlines .lf ls) := by
  have hnil : ¬ HasReturn [] := Bool.false_ne_true
  induction ls with
  | nil => exact hnil
  | cons l ls ih =>
    have hl : lineFeed ∉ l := h l List.mem_cons_self
    cases ls with
    | nil =>
      have hend := not_hasReturn_append hl (parted_nil l) hnil
      rwa [List.append_nil, ← unlines_singleton .lf l] at hend
    | cons m ls =>
      have hmore := ih (fun k hk => h k (List.mem_cons_of_mem l hk))
        fun k hk => hreturn k (List.mem_cons_of_mem l hk)
      rw [unlines_cons_cons]
      apply not_hasReturn_append hl (parted_ending (fun _ => hreturn) _)
      rw [LineEnding.text, List.singleton_append, hasReturn_cons]
      rintro (⟨hc, -⟩ | hr)
      · exact absurd hc (by decide)
      · exact hmore hr

/-- The ending is the one the lines are told apart by: with line feeds alone none but the
last may end in a carriage return, and the other ending has to occur. -/
def Fits : LineEnding → List Text → Prop
  | .lf, ls => Unreturned ls
  | .crlf, ls => 1 < ls.length

theorem fits_lines (t : Text) : Fits (.detect t) (lines t) := by
  unfold LineEnding.detect
  split
  · rename_i h
    exact one_lt_length_lines h
  · rename_i h
    exact unreturned_lines h

theorem detect_unlines {ending : LineEnding} {ls : List Text} (h : Unbroken ls)
    (hfits : Fits ending ls) : LineEnding.detect (unlines ending ls) = ending := by
  cases ending with
  | lf =>
    have hnot : ¬ HasReturn (unlines .lf ls) := not_hasReturn_unlines h hfits
    exact if_neg hnot
  | crlf =>
    match ls, hfits with
    | l :: m :: ls, _ =>
      have hreturn : HasReturn (unlines .crlf (l :: m :: ls)) := by
        rw [unlines_cons_cons]
        exact hasReturn_append l ((hasReturn_cons _ _).mpr (.inl ⟨rfl, rfl⟩))
      exact if_pos hreturn

end JadeEditor.Text
