import JadeEditor.Buffer.Document

/-!
# The outline of a document

Every function definition with its line and its offset, in the order of the
lines. Names may occur more than once.
-/

namespace JadeEditor

set_option autoImplicit false

structure Definition where
  name : Text
  line : Int
  offset : Int
  deriving DecidableEq

namespace Definition

/-- The definitions on the given lines, of which the first has the given number
and offset. -/
def collect (line offset : Nat) : List Text → List Definition
  | [] => []
  | t :: ts =>
    let more := collect (line + 1) (offset + t.length + 1) ts
    match Line.definedName? t with
    | some name => ⟨name, line, offset⟩ :: more
    | none => more

/-- The definitions of the given name. -/
def named (name : Text) (ds : List Definition) : List Definition :=
  ds.filter fun d => d.name = name

end Definition

def Document.outline (d : Document) : List Definition := Definition.collect 0 0 d.lines

end JadeEditor
