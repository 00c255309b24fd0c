import JadeEditor.Structure.Outline

/-!
# The lines of an outline

An outline names the lines that define a function, in their order. The last such line
above a given one can be found without the outline, by a search through the lines.
-/

namespace JadeEditor

set_option autoImplicit false

theorem Line.isSome_definedName? (t : Text) : (definedName? t).isSome = isDefinition t := by
  rw [definedName?, isDefinition, Option.isSome_map]

namespace Definition

theorem collect_of_definition {t : Text} (h : Line.isDefinition t = true) (line offset : Nat)
    (ts : List Text) : ∃ name, collect line offset (t :: ts)
      = ⟨name, line, offset⟩ :: collect (line + 1) (offset + t.length + 1) ts := by
  rw [← Line.isSome_definedName?] at h
  obtain ⟨name, hname⟩ := Option.isSome_iff_exists.mp h
  exact ⟨name, by rw [collect, hname]⟩

theorem collect_of_other {t : Text} (h : Line.isDefinition t = false) (line offset : Nat)
    (ts : List Text) :
    collect line offset (t :: ts) = collect (line + 1) (offset + t.length + 1) ts := by
  rw [← Line.isSome_definedName?, Option.isSome_eq_false_iff, Option.isNone_iff_eq_none] at h
  rw [collect, h]

theorem collect_of_others {ts : List Text} (h : ∀ t ∈ ts, Line.isDefinition t = false)
    (line offset : Nat) : collect line offset ts = [] := by
  induction ts generalizing line offset with
  | nil => rfl
  | cons t ts ih =>
    rw [collect_of_other (h t List.mem_cons_self)]
    exact ih (fun u hu => h u (List.mem_cons_of_mem t hu)) _ _

theorem collect_append (line offset : Nat) (ts more : List Text) :
    collect line offset (ts ++ more)
      = collect line offset ts ++ collect (line + ts.length) (offset + Text.extent ts) more := by
  induction ts generalizing line offset with
  | nil => rfl
  | cons t ts ih =>
    have hline : line + (t :: ts).length = line + 1 + ts.length := by
      rw [List.length_cons, Nat.add_assoc, Nat.add_comm 1]
    have hoffset : offset + Text.extent (t :: ts) = offset + t.length + 1 + Text.extent ts := by
      rw [Text.extent]
      omega
    rw [List.cons_append, hline, hoffset]
    simp only [collect, ih]
    split
    · rfl
    · rfl

theorem line_of_mem_collect {line offset : Nat} {ts : List Text} {e : Definition}
    (h : e ∈ collect line offset ts) : (line : Int) ≤ e.line := by
  induction ts generalizing line offset with
  | nil => cases h
  | cons t ts ih =>
    have hrest : e ∈ collect (line + 1) (offset + t.length + 1) ts → (line : Int) ≤ e.line := by
      intro hmem
      have hlater := ih hmem
      omega
    by_cases ht : Line.isDefinition t = true
    · obtain ⟨name, hcollect⟩ := collect_of_definition ht line offset ts
      rw [hcollect] at h
      rcases List.mem_cons.mp h with rfl | h
      · exact Int.le_refl _
      · exact hrest h
    · rw [collect_of_other (Bool.eq_false_iff.mpr ht)] at h
      exact hrest h

theorem line_lt_of_mem_collect {line offset : Nat} {ts : List Text} {e : Definition}
    (h : e ∈ collect line offset ts) : e.line < (line + ts.length : Nat) := by
  induction ts generalizing line offset with
  | nil => cases h
  | cons t ts ih =>
    rw [List.length_cons]
    have hrest : e ∈ collect (line + 1) (offset + t.length + 1) ts →
        e.line < (line + (ts.length + 1) : Nat) := by
      intro hmem
      have hearlier := ih hmem
      omega
    by_cases ht : Line.isDefinition t = true
    · obtain ⟨name, hcollect⟩ := collect_of_definition ht line offset ts
      rw [hcollect] at h
      rcases List.mem_cons.mp h with rfl | h
      · simp only
        omega
      · exact hrest h
    · rw [collect_of_other (Bool.eq_false_iff.mpr ht)] at h
      exact hrest h

theorem pairwise_collect (line offset : Nat) (ts : List Text) :
    (collect line offset ts).Pairwise fun a b => a.line < b.line := by
  induction ts generalizing line offset with
  | nil => exact .nil
  | cons t ts ih =>
    by_cases ht : Line.isDefinition t = true
    · obtain ⟨name, hcollect⟩ := collect_of_definition ht line offset ts
      rw [hcollect]
      refine List.pairwise_cons.mpr ⟨?_, ih _ _⟩
      intro e he
      have hlater := line_of_mem_collect he
      simp only
      omega
    · rw [collect_of_other (Bool.eq_false_iff.mpr ht)]
      exact ih _ _

theorem filter_above {es : List Definition} (hsorted : es.Pairwise fun a b => a.line < b.line)
    {k : Nat} {e : Definition} (h : es[k]? = some e) :
    (es.filter fun a => decide (a.line < e.line)) = es.take k := by
  induction es generalizing k with
  | nil => simp at h
  | cons a es ih =>
    obtain ⟨hfirst, hrest⟩ := List.pairwise_cons.mp hsorted
    cases k with
    | zero =>
      obtain rfl : a = e := by simpa using h
      rw [List.take_zero, List.filter_eq_nil_iff]
      intro b hb
      rcases List.mem_cons.mp hb with rfl | hb
      · simp
      · have hlater := hfirst b hb
        simp only [decide_eq_true_eq]
        omega
    | succ k =>
      have hlater := hfirst e (List.mem_of_getElem? h)
      rw [List.filter_cons_of_pos (by simpa using hlater), List.take_succ_cons, ih hrest h]

/-- The definitions above line `k` of the given lines, the last of which can be searched for
among the lines. -/
theorem getLast?_collect_above (line offset k : Nat) (ts : List Text) :
    ((collect line offset ts).filter fun e => decide (e.line < ((line + k : Nat) : Int))).getLast?.map
        Definition.line
      = (lastIndex? Line.isDefinition (ts.take k)).map fun i => ((line + i : Nat) : Int) := by
  induction ts generalizing line offset k with
  | nil => simp [collect, lastIndex?]
  | cons t ts ih =>
    cases k with
    | zero =>
      have hnone : ∀ e ∈ collect line offset (t :: ts), ¬ e.line < ((line + 0 : Nat) : Int) := by
        intro e he
        have hline := line_of_mem_collect he
        omega
      rw [List.filter_eq_nil_iff.mpr (by simpa using hnone)]
      rfl
    | succ k =>
      have hrest := ih (line + 1) (offset + t.length + 1) k
      rw [Nat.add_right_comm, Nat.add_assoc] at hrest
      have hshift : ∀ i : Nat, ((line + 1 + i : Nat) : Int) = (line + (i + 1) : Nat) := by
        intro i
        omega
      rw [List.take_succ_cons, lastIndex?]
      by_cases ht : Line.isDefinition t = true
      · obtain ⟨name, hcollect⟩ := collect_of_definition ht line offset ts
        have hhead : (line : Int) < ((line + (k + 1) : Nat) : Int) := by omega
        rw [hcollect, List.filter_cons_of_pos (by exact decide_eq_true hhead), List.getLast?_cons]
        cases hlast : lastIndex? Line.isDefinition (ts.take k) with
        | none =>
          rw [hlast, Option.map_none, Option.map_eq_none_iff] at hrest
          rw [hrest, if_pos ht]
          rfl
        | some i =>
          rw [hlast] at hrest
          obtain ⟨e, he, hline⟩ := Option.map_eq_some_iff.mp hrest
          rw [he]
          exact congrArg some (hline.trans (hshift i))
      · rw [collect_of_other (Bool.eq_false_iff.mpr ht), hrest]
        cases lastIndex? Line.isDefinition (ts.take k) with
        | none => rw [if_neg ht]; rfl
        | some i => exact congrArg some (hshift i)

end Definition

namespace Document

/-- An outline is put together from the outlines of parts of the document. -/
theorem outline_of_lines {d : Document} {above middle below : List Text}
    (h : d.lines = above ++ middle ++ below) :
    d.outline = Definition.collect 0 0 above
      ++ Definition.collect above.length (Text.extent above) middle
      ++ Definition.collect (above.length + middle.length)
        (Text.extent above + Text.extent middle) below := by
  rw [outline, h, List.append_assoc, Definition.collect_append, Definition.collect_append,
    Nat.zero_add, Nat.zero_add, List.append_assoc]

theorem pairwise_outline (d : Document) : d.outline.Pairwise fun a b => a.line < b.line :=
  Definition.pairwise_collect 0 0 d.lines

/-- The definitions that begin before a position. -/
def definitionsBefore (d : Document) (p : Position) : List Definition :=
  d.outline.filter fun e => decide ((⟨e.line, 0⟩ : Position) < p)

end Document

end JadeEditor
