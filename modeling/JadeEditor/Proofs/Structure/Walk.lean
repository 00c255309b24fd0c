import JadeEditor.Proofs.Structure.BraceOrder
import JadeEditor.Proofs.Structure.Outline
import JadeEditor.Structure.Travel

/-!
# Walks

A walk that takes its steps along a path ends where the path does, or before that if
fewer steps are asked for. Going back from definition to definition is such a walk: its
path is the outline of the document, read from the place it starts at up to the top.
-/

namespace JadeEditor

set_option autoImplicit false

theorem Travel.walk_along {step : Position → Step} {path : Nat → Position} {n : Nat}
    (hmoves : ∀ i < n, step (path i) = .moved (path (i + 1))) (hends : step (path n) = .nothing)
    (start : Position) {i : Nat} (hi : i ≤ n) (count : Nat) :
    walk step start i (path i) count
      = ⟨path (min (i + count) n), (min (i + count) n : Nat),
        if i + count ≤ n then .done else .exhausted⟩ := by
  induction count generalizing i with
  | zero => rw [walk, Nat.add_zero, Nat.min_eq_left hi, if_pos hi]
  | succ count ih =>
    rw [walk]
    by_cases hlt : i < n
    · have hnext : i + 1 + count = i + (count + 1) := by omega
      rw [hmoves i hlt]
      simp only
      rw [ih hlt, ← hnext]
    · obtain rfl : i = n := by omega
      have hover : ¬ i + (count + 1) ≤ i := by omega
      rw [hends, if_neg hover, Nat.min_eq_right (by omega)]

namespace Document

/-! ## Back to the definition before -/

theorem stepBack_eq (d : Document) (p : Position) :
    d.stepBack p = match (d.definitionsBefore p).getLast? with
      | some e => .moved ⟨e.line, 0⟩
      | none => .nothing := by
  let candidates := if 0 < p.column then p.line + 1 else p.line
  have hbefore : d.definitionsBefore p
      = d.outline.filter fun e => decide (e.line < ((0 + candidates.toNat : Nat) : Int)) := by
    apply List.filter_congr
    intro e he
    have hline := Definition.line_of_mem_collect he
    rw [decide_eq_decide, Position.lt_iff]
    simp only [candidates]
    split <;> omega
  have hlast := Definition.getLast?_collect_above 0 0 candidates.toNat d.lines
  rw [← outline, ← hbefore] at hlast
  have hprevious : d.previousDefinition? p = (lastIndex? Line.isDefinition
      (d.lines.take candidates.toNat)).map fun line => ⟨line, 0⟩ := by
    change Option.map _ (lastIndex? Line.isDefinition (d.lines.take candidates.toNat) >>= _) = _
    cases lastIndex? Line.isDefinition (d.lines.take candidates.toNat) <;> rfl
  rw [stepBack, hprevious]
  cases hfound : lastIndex? Line.isDefinition (d.lines.take candidates.toNat) with
  | none =>
    rw [hfound, Option.map_none, Option.map_eq_none_iff] at hlast
    rw [hlast]
    rfl
  | some i =>
    rw [hfound] at hlast
    obtain ⟨e, he, hline : e.line = ((0 + i : Nat) : Int)⟩ := Option.map_eq_some_iff.mp hlast
    have hmoved : (⟨i, 0⟩ : Position) = ⟨e.line, 0⟩ := by
      rw [hline, Nat.zero_add]
    rw [he]
    exact congrArg Step.moved hmoved

/-- The place reached from `p` when `i` definitions have been passed. -/
def placeBefore (d : Document) (p : Position) (i : Nat) : Position :=
  let before := d.definitionsBefore p
  match before[before.length - i]? with
  | some e => ⟨e.line, 0⟩
  | none => p

/-- The definitions before one of those before a position. -/
theorem definitionsBefore_start {d : Document} {p : Position} {k : Nat} {e : Definition}
    (h : (d.definitionsBefore p)[k]? = some e) :
    d.definitionsBefore ⟨e.line, 0⟩ = (d.definitionsBefore p).take k := by
  have hep : (⟨e.line, 0⟩ : Position) < p := by
    simpa using (List.mem_filter.mp (List.mem_of_getElem? h)).2
  have hsorted : (d.definitionsBefore p).Pairwise fun a b => a.line < b.line :=
    List.Pairwise.filter _ d.pairwise_outline
  rw [← Definition.filter_above hsorted h, definitionsBefore, definitionsBefore,
    List.filter_filter]
  apply List.filter_congr
  intro a _
  rw [Bool.eq_iff_iff]
  simp only [decide_eq_true_eq, Bool.and_eq_true, Position.lt_iff] at hep ⊢
  omega

theorem definitionsBefore_placeBefore (d : Document) (p : Position) {i : Nat}
    (hi : i ≤ (d.definitionsBefore p).length) :
    d.definitionsBefore (d.placeBefore p i)
      = (d.definitionsBefore p).take ((d.definitionsBefore p).length - i) := by
  unfold placeBefore
  simp only
  split
  · rename_i e he
    exact definitionsBefore_start he
  · rename_i hnone
    have hzero : i = 0 := by
      have hlength := List.getElem?_eq_none_iff.mp hnone
      omega
    rw [hzero, Nat.sub_zero, List.take_length]

theorem stepBack_placeBefore (d : Document) (p : Position) {i : Nat}
    (hi : i < (d.definitionsBefore p).length) :
    d.stepBack (d.placeBefore p i) = .moved (d.placeBefore p (i + 1)) := by
  have hlast : ((d.definitionsBefore p).take ((d.definitionsBefore p).length - i)).getLast?
      = (d.definitionsBefore p)[(d.definitionsBefore p).length - (i + 1)]? := by
    have hsome : (d.definitionsBefore p).length - (i + 1) < (d.definitionsBefore p).length := by
      omega
    rw [List.getLast?_take, if_neg (by omega), Nat.sub_sub, List.getElem?_eq_getElem hsome]
    rfl
  rw [stepBack_eq, definitionsBefore_placeBefore d p (Nat.le_of_lt hi), hlast, placeBefore]
  split
  · rfl
  · rename_i hnone
    have hlength := List.getElem?_eq_none_iff.mp hnone
    omega

theorem stepBack_end (d : Document) (p : Position) :
    d.stepBack (d.placeBefore p (d.definitionsBefore p).length) = .nothing := by
  rw [stepBack_eq, definitionsBefore_placeBefore d p (Nat.le_refl _), Nat.sub_self,
    List.take_zero]
  rfl

end Document

/-- Going back `count` times passes as many of the definitions that begin before the
position, the nearest first, and stops at the first one of the document. -/
theorem toDefinitionStart_follows_outline (d : Document) (p : Position) (count : Nat) :
    let before := d.outline.filter fun e => decide ((⟨e.line, 0⟩ : Position) < p)
    let steps := min count before.length
    d.toDefinitionStart p count =
      { position := match before[before.length - steps]? with
          | some e => ⟨e.line, 0⟩
          | none => p
        steps := steps
        outcome := if steps = count then .done else .exhausted } := by
  intro before steps
  have hstart : d.placeBefore p 0 = p := by
    simp [Document.placeBefore]
  have hwalk := Travel.walk_along (fun i => d.stepBack_placeBefore p (i := i)) (d.stepBack_end p) p
    (Nat.zero_le _) count
  rw [hstart, Nat.zero_add] at hwalk
  have hdone : (steps = count) = (count ≤ (d.definitionsBefore p).length) := by
    apply propext
    change min count (d.definitionsBefore p).length = count ↔ _
    omega
  rw [Document.toDefinitionStart, Int.toNat_natCast]
  simp only [hdone]
  exact hwalk

end JadeEditor
