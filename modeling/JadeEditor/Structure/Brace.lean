import JadeEditor.Buffer.Document

/-!
# Braces

The braces of a document outside its comments, in order, and the search for the
brace that closes a block. Unlike the indentation this goes across lines and
counts depth.
-/

namespace JadeEditor

set_option autoImplicit false

inductive Side where
  | opening
  | closing
  deriving DecidableEq

structure Brace where
  side : Side
  position : Position
  deriving DecidableEq

namespace Brace

/-- The side of a unit that is a brace. -/
def side? (c : CodeUnit) : Option Side :=
  if c = CodeUnit.openBrace then some .opening
  else if c = CodeUnit.closeBrace then some .closing
  else none

/-- The braces of a piece of line `line` that starts at `column`. -/
def ofPiece (line column : Nat) : Text → List Brace
  | [] => []
  | c :: piece =>
    let more := ofPiece line (column + 1) piece
    match side? c with
    | some side => ⟨side, ⟨line, column⟩⟩ :: more
    | none => more

/-- The braces outside comments of the given lines, of which the first has number `line`. -/
def ofLines (line : Nat) : List Text → List Brace
  | [] => []
  | t :: ts => ofPiece line 0 (Line.code t) ++ ofLines (line + 1) ts

/-- The first closing brace that brings the depth down to zero. -/
def closeAfter (depth : Int) : List Brace → Option Position
  | [] => none
  | b :: bs =>
    match b.side with
    | .opening => closeAfter (depth + 1) bs
    | .closing => if depth = 1 then some b.position else closeAfter (depth - 1) bs

end Brace

namespace Document

/-- The braces outside comments, in the order of their positions. -/
def braces (d : Document) : List Brace := Brace.ofLines 0 d.lines

/-- The first opening brace at or after a position. -/
def nextOpening? (d : Document) (p : Position) : Option Position :=
  (d.braces.find? fun b => b.side = .opening ∧ p ≤ b.position).map Brace.position

/-- The brace that closes the block opened at a position. -/
def closing? (d : Document) (p : Position) : Option Position :=
  Brace.closeAfter 0 (d.braces.filter fun b => p ≤ b.position)

end Document

end JadeEditor
