import JadeEditor.Line.Token
import JadeEditor.Terminal.Colour

/-!
# Highlighted lines

A line is shown with the colour of its category on each token and the text
between tokens left plain.
-/

namespace JadeEditor.Line

set_option autoImplicit false

open Terminal

def Category.colour : Category → Colour
  | .comment => .gray
  | .functionName => .blue
  | .keyword => .magenta
  | .typeName => .cyan

/-- The line from `column` on, given the tokens that start there or later. -/
def renderFrom (palette : Palette) (line : Text) (column : Nat) : List Token → Text
  | [] => line.drop column
  | t :: tokens =>
    line.slice column t.span.start
      ++ palette.paint t.category.colour (line.slice t.span.start t.span.stop)
      ++ renderFrom palette line t.span.stop tokens

def render (palette : Palette) (rules : List Rule) (line : Text) : Text :=
  renderFrom palette line 0 (classify rules line)

end JadeEditor.Line
