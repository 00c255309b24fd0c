import JadeEditor.Yaml.Growth
import JadeEditor.Yaml.Scan
import JadeEditor.Yaml.Value

/-!
# Documents

A text holds at most one document. Directives may stand before it, on lines of
their own, and then a marker has to start it.
-/

namespace JadeEditor.Yaml

set_option autoImplicit false

/-- Where a row of lexemes stands in the stream. -/
inductive Stage where
  /-- Outside of any document. -/
  | outside
  | inside (document : OpenDocument)
  /-- Behind the marker that ends a document; space has been read or not. -/
  | ending (hasSpace : Bool)

/-- The lexemes of a text, sorted. -/
structure Stream where
  stage : Stage := .outside
  /-- The directives before the document. -/
  before : List Text := []
  document : Option OpenDocument := none
  /-- The directives behind the document. -/
  behind : List Text := []

namespace Stream

/-- Starts a document, which must be the only one. -/
def startDocument (s : Stream) (start : List Lexeme) : Except Problem Stream :=
  if s.document.isSome then .error .severalDocuments
  else .ok { s with stage := .inside { start := start } }

/-- Ends the document, if one is open. -/
def endDocument (s : Stream) : Stream :=
  match s.stage with
  | .inside d => { s with stage := .outside, document := some d.closeAll }
  | _ => { s with stage := .outside }

def takeOutside (s : Stream) (x : Lexeme) : Except Problem Stream :=
  match x.kind with
  | .directive =>
    .ok (if s.document.isSome then { s with behind := s.behind ++ [x.text] }
      else { s with before := s.before ++ [x.text] })
  | .byteOrderMark | .space | .comment | .newline => .ok s
  | .contentStart => s.startDocument []
  | .documentStart => s.startDocument [x]
  | _ => .error (.unexpected x.text)

/-- The rest of the line of a marker that ends a document. -/
def takeEnding (s : Stream) (hasSpace : Bool) (x : Lexeme) : Except Problem Stream :=
  match x.kind with
  | .contentStart => .ok s
  | .space => .ok { s with stage := .ending true }
  | .comment => if hasSpace then .ok s else .error .missingSpace
  | .newline => .ok { s with stage := .outside }
  | _ => .error (.unexpected x.text)

def take (s : Stream) (x : Lexeme) : Except Problem Stream :=
  match s.stage with
  | .ending hasSpace => s.takeEnding hasSpace x
  | .outside =>
    if x.kind = .documentEnd then
      if s.document.isSome then .ok { s with stage := .ending false }
      else .error (.unexpected x.text)
    else s.takeOutside x
  | .inside d =>
    if x.kind = .documentEnd then .ok { s.endDocument with stage := .ending false }
    else do
      let d ← d.take x
      return { s with stage := .inside d }

def ofLexemes (xs : List Lexeme) : Except Problem Stream := do
  let s ← xs.foldlM take {}
  return s.endDocument

end Stream

/-- The node of a document, given its directives. -/
def OpenDocument.node (d : OpenDocument) (directives : Directives) (needsMarker : Bool) :
    Except Problem Node := do
  let follower := Follower.ofParts d.value none
  let p ← Properties.ofRow ⟨false, .documentStart, follower, 0, true⟩ d.start
  if p.indicator.isNone && needsMarker then .error .missingMarker
  if p.indicator.isSome && d.value.any Tree.isBlockCollection && !p.hasNewline then
    .error .missingNewline
  match d.value with
  | some t => Node.ofTree directives true 0 p t
  | none => Node.ofNothing directives p

/-- The value of a text; where there is no document it is null. -/
def read (t : Text) : Except Problem Data := do
  let s ← Stream.ofLexemes (← scan t)
  let directives ← Directives.ofLines s.before
  let _ ← Directives.ofLines s.behind
  match s.document with
  | some d =>
    let node ← d.node directives (!s.before.isEmpty)
    return (← node.value []).1
  | none => if s.before.isEmpty then return .null else .error .missingMarker

end JadeEditor.Yaml
