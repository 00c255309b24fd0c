import JadeEditor.Structure.Brace

/-!
# Moving by definitions

Backward to the start of a definition and forward to the end of a block, any
number of times. A search that runs out keeps the moves made so far; a block that
is never closed takes them all back.
-/

namespace JadeEditor

set_option autoImplicit false

inductive Outcome where
  /-- Every repetition moved. -/
  | done
  /-- Some repetition found nothing; the moves before it are kept. -/
  | exhausted
  /-- A block was never closed; nothing moved. -/
  | unbalanced
  deriving DecidableEq

structure Travel where
  position : Position
  /-- The repetitions that moved. -/
  steps : Int
  outcome : Outcome
  deriving DecidableEq

/-- The result of one repetition. -/
inductive Step where
  | moved (p : Position)
  | nothing
  | unclosed

namespace Travel

/-- Takes up to `count` steps from a position that was reached from `start` in
`steps` steps. -/
def walk (step : Position → Step) (start : Position) (steps : Nat) (p : Position) :
    (count : Nat) → Travel
  | 0 => ⟨p, steps, .done⟩
  | count + 1 =>
    match step p with
    | .moved q => walk step start (steps + 1) q count
    | .nothing => ⟨p, steps, .exhausted⟩
    | .unclosed => ⟨start, 0, .unbalanced⟩

end Travel

namespace Document

/-- The start of the nearest definition that begins before the position. -/
def previousDefinition? (d : Document) (p : Position) : Option Position :=
  let candidates := if 0 < p.column then p.line + 1 else p.line
  (lastIndex? Line.isDefinition (d.lines.take candidates.toNat)).map fun line => ⟨line, 0⟩

def stepBack (d : Document) (p : Position) : Step :=
  match d.previousDefinition? p with
  | some q => .moved q
  | none => .nothing

/-- To the end of the block that the next opening brace opens. -/
def stepForward (d : Document) (p : Position) : Step :=
  match d.nextOpening? p with
  | none => .nothing
  | some q =>
    match d.closing? q with
    | some r => .moved r
    | none => .unclosed

/-- Backward to the start of a definition, `count` times. -/
def toDefinitionStart (d : Document) (p : Position) (count : Int) : Travel :=
  Travel.walk d.stepBack p 0 p count.toNat

/-- Forward to the end of a block, `count` times. -/
def toBlockEnd (d : Document) (p : Position) (count : Int) : Travel :=
  Travel.walk d.stepForward p 0 p count.toNat

end Document

end JadeEditor
