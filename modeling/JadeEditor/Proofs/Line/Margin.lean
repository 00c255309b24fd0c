import JadeEditor.Line.Shape
import Mathlib.Data.List.DropRight

/-!
# Margins

A change of indentation replaces the margin of a line and leaves its body. What the
editor can tell from a line - whether it is blank, opens or closes a block - is told
from the body alone, so it survives the change.
-/

namespace JadeEditor

set_option autoImplicit false

theorem CodeUnit.isSpace_of_isBlank {c : CodeUnit} (h : c.isBlank) : c.isSpace := by
  simp only [CodeUnit.isBlank, Bool.or_eq_true, beq_iff_eq] at h
  rcases h with rfl | rfl <;> decide

namespace Line

theorem isBlank_of_mem_spaces {n : Nat} {c : CodeUnit} (h : c ∈ Text.spaces n) : c.isBlank := by
  rw [List.eq_of_mem_replicate h]
  decide

theorem isBlank_of_mem_margin {t : Text} {c : CodeUnit} (h : c ∈ margin t) : c.isBlank :=
  List.mem_takeWhile_imp h

/-! ## White space in front of a line -/

section Front

variable {front : Text} (hfront : ∀ c ∈ front, c.isSpace)
include hfront

theorem isBlank_append (t : Text) : isBlank (front ++ t) = isBlank t := by
  have hall : front.all CodeUnit.isSpace = true := List.all_eq_true.mpr hfront
  rw [isBlank, List.all_append, hall, Bool.true_and, isBlank]

theorem closesBlock_append (t : Text) : closesBlock (front ++ t) = closesBlock t := by
  rw [closesBlock, List.dropWhile_append_of_pos hfront, closesBlock]

theorem opensBlock_append (t : Text) : opensBlock (front ++ t) = opensBlock t := by
  have hback : front.reverse.dropWhile CodeUnit.isSpace = [] := by
    rw [List.dropWhile_eq_nil_iff]
    intro c hc
    exact hfront c (List.mem_reverse.mp hc)
  rw [opensBlock, List.reverse_append, List.dropWhile_append, opensBlock]
  split
  · rename_i hempty
    rw [hback, List.isEmpty_iff.mp hempty]
  · rename_i hsome
    have hne : t.reverse.dropWhile CodeUnit.isSpace ≠ [] := fun h => hsome (List.isEmpty_iff.mpr h)
    rw [List.head?_append_of_ne_nil _ hne]

end Front

/-! ## White space behind a line -/

theorem opensBlock_iff_split {t : Text} : opensBlock t = true
    ↔ ∃ front back, t = front ++ CodeUnit.openBrace :: back ∧ ∀ c ∈ back, c.isSpace := by
  rw [opensBlock, beq_iff_eq]
  constructor
  · intro hhead
    obtain ⟨rest, hrest⟩ := List.head?_eq_some_iff.mp hhead
    refine ⟨rest.reverse, (t.reverse.takeWhile CodeUnit.isSpace).reverse, ?_, ?_⟩
    · have hcut := List.takeWhile_append_dropWhile (p := CodeUnit.isSpace) (l := t.reverse)
      rw [hrest] at hcut
      have hback := congrArg List.reverse hcut
      simpa using hback.symm
    · intro c hc
      exact List.mem_takeWhile_imp (List.mem_reverse.mp hc)
  · rintro ⟨front, back, rfl, hback⟩
    have hreverse : ∀ c ∈ back.reverse, c.isSpace := fun c hc => hback c (List.mem_reverse.mp hc)
    rw [List.reverse_append, List.reverse_cons, List.append_assoc,
      List.dropWhile_append_of_pos hreverse]
    rfl

theorem opensBlock_append_back {back : Text} (hback : ∀ c ∈ back, c.isSpace) (t : Text) :
    opensBlock (t ++ back) = opensBlock t := by
  have hreverse : ∀ c ∈ back.reverse, c.isSpace := fun c hc => hback c (List.mem_reverse.mp hc)
  rw [opensBlock, List.reverse_append, List.dropWhile_append_of_pos hreverse, opensBlock]

/-- Once there is something, what follows does not count. -/
theorem indentation_append {front : Text} (h : ¬ isBlank front = true) (back : Text) :
    indentation (front ++ back) = indentation front := by
  have hpart : (front.takeWhile (· == CodeUnit.space)).length ≠ front.length := by
    intro hlength
    apply h
    have hall : front.takeWhile (· == CodeUnit.space) = front :=
      (List.takeWhile_prefix _).eq_of_length hlength
    refine List.all_eq_true.mpr fun c hc => ?_
    rw [← hall] at hc
    have hspace : (c == CodeUnit.space) = true :=
      List.mem_takeWhile_imp (p := (· == CodeUnit.space)) hc
    rw [beq_iff_eq.mp hspace]
    decide
  rw [indentation, List.takeWhile_append, if_neg hpart, indentation]

theorem isBlank_shape {t : Text} (h : isBlank t = true) :
    closesBlock t = false ∧ opensBlock t = false := by
  have hspace : ∀ c ∈ t, c.isSpace := List.all_eq_true.mp h
  have hfront : t.dropWhile CodeUnit.isSpace = [] := List.dropWhile_eq_nil_iff.mpr hspace
  have hback : t.reverse.dropWhile CodeUnit.isSpace = [] :=
    List.dropWhile_eq_nil_iff.mpr fun c hc => hspace c (List.mem_reverse.mp hc)
  rw [closesBlock, opensBlock, hfront, hback]
  exact ⟨rfl, rfl⟩

theorem not_isBlank_of_opensBlock {t : Text} (h : opensBlock t = true) : ¬ isBlank t = true := by
  intro hblank
  rw [(isBlank_shape hblank).2] at h
  cases h

theorem isSpace_of_mem_margin {t : Text} : ∀ c ∈ margin t, c.isSpace := fun _ h =>
  CodeUnit.isSpace_of_isBlank (isBlank_of_mem_margin h)

theorem isSpace_of_mem_spaces {n : Nat} : ∀ c ∈ Text.spaces n, c.isSpace := fun _ h =>
  CodeUnit.isSpace_of_isBlank (isBlank_of_mem_spaces h)

/-! ## Another margin -/

@[simp] theorem body_body (t : Text) : body (body t) = body t := List.dropWhile_idempotent _ t

@[simp] theorem body_indentTo (n : Nat) (t : Text) : body (indentTo n t) = body t := by
  rw [indentTo, body, List.dropWhile_append_of_pos fun c hc => isBlank_of_mem_spaces hc]
  exact body_body t

@[simp] theorem margin_indentTo (n : Nat) (t : Text) : margin (indentTo n t) = Text.spaces n := by
  have hcut := margin_append_body (indentTo n t)
  rw [body_indentTo] at hcut
  exact List.append_cancel_right hcut

theorem indentTo_indentTo (n m : Nat) (t : Text) : indentTo n (indentTo m t) = indentTo n t := by
  rw [indentTo, body_indentTo, indentTo]

@[simp] theorem isBlank_body (t : Text) : isBlank (body t) = isBlank t := by
  conv_rhs => rw [← margin_append_body t, isBlank_append isSpace_of_mem_margin]

@[simp] theorem opensBlock_body (t : Text) : opensBlock (body t) = opensBlock t := by
  conv_rhs => rw [← margin_append_body t, opensBlock_append isSpace_of_mem_margin]

@[simp] theorem closesBlock_body (t : Text) : closesBlock (body t) = closesBlock t := by
  conv_rhs => rw [← margin_append_body t, closesBlock_append isSpace_of_mem_margin]

@[simp] theorem isBlank_indentTo (n : Nat) (t : Text) : isBlank (indentTo n t) = isBlank t :=
  (isBlank_append isSpace_of_mem_spaces _).trans (isBlank_body t)

@[simp] theorem opensBlock_indentTo (n : Nat) (t : Text) :
    opensBlock (indentTo n t) = opensBlock t :=
  (opensBlock_append isSpace_of_mem_spaces _).trans (opensBlock_body t)

@[simp] theorem closesBlock_indentTo (n : Nat) (t : Text) :
    closesBlock (indentTo n t) = closesBlock t :=
  (closesBlock_append isSpace_of_mem_spaces _).trans (closesBlock_body t)

/-- The body does not start with a space, so the new margin is the indentation. -/
@[simp] theorem indentation_indentTo (n : Nat) (t : Text) : indentation (indentTo n t) = n := by
  have hspaces : ∀ c ∈ Text.spaces n, (c == CodeUnit.space) = true := by
    intro c hc
    rw [List.eq_of_mem_replicate hc]
    exact beq_self_eq_true _
  have hbody : (body t).takeWhile (· == CodeUnit.space) = [] := by
    cases hb : body t with
    | nil => rfl
    | cons c rest =>
      have hstart := List.head?_dropWhile_not CodeUnit.isBlank t
      rw [← body, hb] at hstart
      simp only [List.head?_cons, CodeUnit.isBlank, Bool.or_eq_false_iff] at hstart
      simp [hstart.1]
  rw [indentation, indentTo, List.takeWhile_append_of_pos hspaces, hbody]
  simp

/-- A line that is not blank ends as before. -/
theorem getLast?_indentTo {t : Text} (h : ¬ isBlank t = true) (n : Nat) :
    (indentTo n t).getLast? = t.getLast? := by
  have hbody : body t ≠ [] := by
    intro hnil
    apply h
    rw [← isBlank_body, hnil]
    rfl
  rw [indentTo, List.getLast?_append_of_ne_nil _ hbody]
  conv_rhs => rw [← margin_append_body t, List.getLast?_append_of_ne_nil _ hbody]

theorem lineFeed_not_mem_indentTo {t : Text} (h : CodeUnit.lineFeed ∉ t) (n : Nat) :
    CodeUnit.lineFeed ∉ indentTo n t := by
  intro hmem
  rcases List.mem_append.mp hmem with hspaces | hbody
  · exact absurd (List.eq_of_mem_replicate hspaces) (by decide)
  · exact h (List.dropWhile_subset _ hbody)

end Line

end JadeEditor
