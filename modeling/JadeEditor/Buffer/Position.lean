import JadeEditor.Text.Basic

/-!
# Positions

A position is a line and a column, both counted from zero. Queries may ask about
positions outside a buffer, negative ones included, so the coordinates are
integers; the cursor of a buffer is always at natural coordinates.
-/

namespace JadeEditor

set_option autoImplicit false

structure Position where
  line : Int
  column : Int
  deriving DecidableEq

namespace Position

/-- Negative when `a` comes before `b`: the difference of the lines or, on one
line, of the columns. -/
def difference (a b : Position) : Int :=
  if a.line ≠ b.line then a.line - b.line else a.column - b.column

instance : LE Position := ⟨fun a b => a.difference b ≤ 0⟩

instance : LT Position := ⟨fun a b => a.difference b < 0⟩

instance (a b : Position) : Decidable (a ≤ b) := inferInstanceAs (Decidable (a.difference b ≤ 0))

instance (a b : Position) : Decidable (a < b) := inferInstanceAs (Decidable (a.difference b < 0))

theorem le_def (a b : Position) : a ≤ b ↔ a.difference b ≤ 0 := Iff.rfl

theorem lt_def (a b : Position) : a < b ↔ a.difference b < 0 := Iff.rfl

theorem le_iff (a b : Position) :
    a ≤ b ↔ a.line < b.line ∨ (a.line = b.line ∧ a.column ≤ b.column) := by
  rw [le_def, difference]
  split <;> omega

theorem lt_iff (a b : Position) :
    a < b ↔ a.line < b.line ∨ (a.line = b.line ∧ a.column < b.column) := by
  rw [lt_def, difference]
  split <;> omega

theorem difference_pos {a b : Position} : 0 < a.difference b ↔ b < a := by
  rw [lt_iff, difference]
  split <;> omega

theorem lt_or_eq_or_lt (a b : Position) : a < b ∨ a = b ∨ b < a := by
  obtain ⟨line, column⟩ := a
  obtain ⟨line', column'⟩ := b
  simp only [lt_iff, mk.injEq]
  omega

end Position

/-- The place of the cursor. -/
structure Cursor where
  line : Nat
  column : Nat
  deriving DecidableEq

namespace Cursor

def origin : Cursor := ⟨0, 0⟩

def position (c : Cursor) : Position := ⟨c.line, c.column⟩

end Cursor

end JadeEditor
