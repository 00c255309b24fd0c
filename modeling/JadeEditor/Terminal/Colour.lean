import JadeEditor.Text.Basic

/-!
# Terminal colours

A coloured text is wrapped in an opening and a closing escape sequence. The
colour is closed before every line break and opened again behind it, and opened
again after every closing sequence of the same kind that the text already holds.
-/

namespace JadeEditor.Terminal

set_option autoImplicit false

inductive Colour where
  | red
  | green
  | yellow
  | blue
  | magenta
  | cyan
  | gray
  | dim
  deriving DecidableEq

/-- The escape sequence that selects rendition `n`. -/
def selectRendition (n : Nat) : Text :=
  CodeUnit.escape :: CodeUnit.openBracket :: (Text.ofNat n ++ [CodeUnit.ofChar 'm'])

namespace Colour

def number : Colour → Nat
  | red => 31
  | green => 32
  | yellow => 33
  | blue => 34
  | magenta => 35
  | cyan => 36
  | gray => 90
  | dim => 2

/-- The rendition that ends the colour: the default foreground, or normal weight. -/
def resetNumber : Colour → Nat
  | dim => 22
  | _ => 39

def opening (c : Colour) : Text := selectRendition c.number

def closing (c : Colour) : Text := selectRendition c.resetNumber

end Colour

/-- Puts `close` before and `open_` behind every line break. -/
def encaseBreaks (close open_ : Text) : Text → Text
  | c :: d :: t =>
    if c = CodeUnit.carriageReturn ∧ d = CodeUnit.lineFeed then
      close ++ c :: d :: (open_ ++ encaseBreaks close open_ t)
    else if c = CodeUnit.lineFeed then close ++ c :: (open_ ++ encaseBreaks close open_ (d :: t))
    else c :: encaseBreaks close open_ (d :: t)
  | [c] => if c = CodeUnit.lineFeed then close ++ c :: open_ else [c]
  | [] => []

/-- Whether colours are shown. -/
inductive Palette where
  | plain
  | coloured
  deriving DecidableEq

namespace Palette

/-- The text in the given colour. -/
def paint (p : Palette) (colour : Colour) (t : Text) : Text :=
  match p with
  | plain => t
  | coloured =>
    if t.isEmpty then t
    else
      let reopened :=
        if t.contains CodeUnit.escape then
          Text.replaceAll colour.closing (colour.closing ++ colour.opening) t
        else t
      colour.opening ++ encaseBreaks colour.closing colour.opening reopened ++ colour.closing

@[simp] theorem paint_plain (colour : Colour) (t : Text) : plain.paint colour t = t := rfl

@[simp] theorem paint_nil (p : Palette) (colour : Colour) : p.paint colour [] = [] := by
  cases p <;> rfl

end Palette

end JadeEditor.Terminal
