import JadeEditor.Buffer.Document

/-!
# Levels of indentation

The level of a line is derived from the nearest line above it that is not blank:
one unit deeper if that line opens a block, one unit less deep if the line itself
closes one. The base is the indentation that line has now, not its nesting depth,
so a line indented by hand shifts everything computed below it.

The editing commands take the rule as a value of type `Indenter`, so another one
can stand in its place.
-/

namespace JadeEditor

set_option autoImplicit false

/-- The unit of indentation where none is given. -/
def defaultUnit : Int := 4

namespace Document

/-- The nearest line above `line` that is not blank. -/
def previousNonBlank? (d : Document) (line : Int) : Option Nat :=
  lastIndex? (fun t => !Line.isBlank t) (d.lines.take line.toNat)

/-- The level the line should have. -/
def level (d : Document) (unit line : Int) : Int :=
  match d.previousNonBlank? line with
  | none => 0
  | some previous =>
    let above := d.lineText previous
    let base : Int := Line.indentation above
    let inner := if Line.opensBlock above then base + unit else base
    if Line.closesBlock (d.lineText line) then max 0 (inner - unit) else inner

end Document

/-- A rule for the level of a line. It reads the document and may fail. -/
structure Indenter (ε : Type) where
  /-- The width of one level. -/
  unit : Int
  levelAt : Document → Int → Except ε Int

namespace Indenter

variable {ε : Type}

/-- The rule that looks back to the nearest line above. -/
def lookback (unit : Int) : Indenter ε := ⟨unit, fun d line => .ok (d.level unit line)⟩

/-- The same level for every line. -/
def fixed (unit level : Int) : Indenter ε := ⟨unit, fun _ _ => .ok level⟩

/-- A rule that always fails. -/
def failing (unit : Int) (failure : ε) : Indenter ε := ⟨unit, fun _ _ => .error failure⟩

end Indenter

end JadeEditor
