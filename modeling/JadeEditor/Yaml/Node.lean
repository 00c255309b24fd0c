import JadeEditor.Yaml.Directive
import JadeEditor.Yaml.Property

/-!
# Nodes

A node is what a tree stands for once space and comments are gone: scalars with
their values, collections, and aliases that refer to an anchored node. The rules
that a tree has to keep are checked on the way.
-/

namespace JadeEditor.Yaml

set_option autoImplicit false

structure Scalar where
  kind : Kind
  text : Text
  value : Data
  /-- As a key, it merges other mappings into its own. -/
  isMerge : Bool := false

inductive Node where
  | scalar (anchor : Option Text) (content : Scalar)
  /-- An alias. -/
  | reference (name : Text)
  | mapping (anchor : Option Text) (fields : List (Node × Option Node))
  | sequence (anchor : Option Text) (items : List Node)

/-- The most units a key without a question mark may take up before its colon. -/
def maxKeyLength : Nat := 1024

/-- The text of a scalar. -/
def content (isRoot : Bool) (around : Nat) (x : Lexeme) : Except Problem Text :=
  match x.kind with
  | .singleQuoted => singleContent x.text
  | .doubleQuoted => doubleContent x.text
  | .block style => blockContent style isRoot around x.text
  | _ => plainContent x.text

/-- What the scalar with the given text stands for. -/
def scalarValue (d : Directives) (tag : Option Lexeme) (kind : Kind) (t : Text) :
    Except Problem Data := do
  match tag with
  | some tag => resolveTagged d.version (← d.tagName tag.text) t
  | none => return if kind = .plain then resolve d.version t else .text t

namespace Scalar

/-- Whether two scalars count as one key. A number is the same as itself only if it
is one, and merging keys never are. -/
def isSame (a b : Scalar) : Bool :=
  !a.isMerge && !b.isMerge &&
  match a.value, b.value with
  | .null, .null => true
  | .boolean a, .boolean b => a == b
  | .text a, .text b => a == b
  | .number (.finite s m e), .number (.finite s' m' e') =>
    (m == 0 && m' == 0) || (s == s' && m == m' && e == e')
  | .number (.infinite a), .number (.infinite b) => a == b
  | _, _ => false

end Scalar

namespace Node

/-- The anchor of a node; it has a name. -/
def anchorName (p : Properties) : Except Problem (Option Text) :=
  match p.anchor with
  | none => .ok none
  | some x => if x.text.length ≤ 1 then .error .badName else .ok (some (x.text.drop 1))

def ofScalar (d : Directives) (isRoot : Bool) (around : Nat) (p : Properties) (x : Lexeme) :
    Except Problem Node := do
  let text ← content isRoot around x
  let value ← scalarValue d p.tag x.kind text
  let isMerge := d.version = .v1_1 && x.kind = .plain && text = utf16 "<<"
  return .scalar (← anchorName p) ⟨x.kind, text, value, isMerge⟩

/-- The node of an empty place. -/
def ofNothing (d : Directives) (p : Properties) : Except Problem Node :=
  ofScalar d false 0 p ⟨⟨.plain, []⟩, 0, 0⟩

def ofAlias (p : Properties) (x : Lexeme) : Except Problem Node :=
  if x.text.length ≤ 1 then .error .badName
  else if !p.isBare then .error .misplacedProperty
  else .ok (.reference (x.text.drop 1))

/-- The anchor of a collection, whose tag says nothing more but has to be one. -/
def collectionAnchor (d : Directives) (p : Properties) : Except Problem (Option Text) := do
  if let some tag := p.tag then
    let _ ← d.tagName tag.text
  anchorName p

/-- Whether two nodes cannot both be keys of one mapping. -/
def isSameKey : Node → Node → Bool
  | .scalar _ a, .scalar _ b => a.isSame b
  | _, _ => false

/-- Adds a field, which must be a new one. -/
def addField (fields : List (Node × Option Node)) (key : Node) (value : Option Node) :
    Except Problem (List (Node × Option Node)) :=
  if fields.any fun f => isSameKey f.1 key then .error .repeatedKey
  else .ok (fields ++ [(key, value)])

/-- Where a key on one line starts. -/
def keyStart (p : Properties) (key : Option Tree) (colon : Lexeme) : Nat :=
  match p.start?, key with
  | some start, _ => start
  | none, some (.scalar x _) => x.start
  | none, some (.flow opening _ _) => opening.start
  | none, _ => colon.start

/-- A key without a question mark stands on one line, at the indentation of its
mapping. -/
def checkImplicitKey (indent : Nat) (p : Properties) (key : Option Tree) :
    Except Problem Unit := do
  if key.any Tree.isSequence || p.isOpenLine || key.any spansLines then .error .keyOverLines
  if key.any fun t => t.indent ≠ indent then .error .badIndentation

/-- What may follow the colon of such a key. -/
def checkImplicitValue (p q : Properties) (key value : Option Tree) (colon : Lexeme) :
    Except Problem Unit := do
  if value.any Tree.isMapping && !q.hasNewline then .error .nestedMapping
  if keyStart p key colon + maxKeyLength < colon.start then .error .longKey

/-- In a flow sequence, the colon of a pair stands on the line of its key. -/
def checkPair (p : Properties) (key : Option Tree) (row : List Lexeme) (colon : Lexeme) :
    Except Problem Unit := do
  if holds .newline (row.takeWhile (·.kind ≠ .colon)) then .error .keyOverLines
  if keyStart p key colon + maxKeyLength < colon.start then .error .longKey

/-- An item of a flow collection. -/
inductive FlowItem where
  | single (node : Node)
  | pair (key : Node) (value : Option Node)

namespace FlowItem

/-- In a sequence, a pair stands for a mapping with one field. -/
def toNode : FlowItem → Node
  | single node => node
  | pair key value => .mapping none [(key, value)]

def toField : FlowItem → Node × Option Node
  | single node => (node, none)
  | pair key value => (key, value)

end FlowItem

/-- The fields of a flow mapping, all of them different. -/
def fieldsOfFlow (items : List FlowItem) : Except Problem (List (Node × Option Node)) :=
  items.foldlM (fun fields item => addField fields item.toField.1 item.toField.2) []

mutual

/-- The node of a tree inside a collection at the indentation `around`. -/
def ofTree (d : Directives) (isRoot : Bool) (around : Nat) (p : Properties) :
    Tree → Except Problem Node
  | .scalar x trail => do
    checkTrail false trail
    if x.kind = .reference then ofAlias p x else ofScalar d isRoot around p x
  | .mapping indent items => do
    let anchor ← collectionAnchor d p
    let (fields, _) ← fieldsOf d indent items
    return .mapping anchor fields
  | .sequence indent items => do
    if !p.isBare && !p.isOwnLine then .error .missingNewline
    let anchor ← collectionAnchor d p
    return .sequence anchor (← itemsOf d indent items)
  | .flow opening items ending => do
    if ending.isEmpty then .error .unclosedFlow
    checkTrail false (ending.drop 1)
    let anchor ← collectionAnchor d p
    let isMapping := opening.kind == .openMapping
    let found ← flowItemsOf d isMapping true items
    if isMapping then return .mapping anchor (← fieldsOfFlow found)
    else return .sequence anchor (found.map FlowItem.toNode)

/-- The node of a key or a value, which may be missing. -/
def ofPart (d : Directives) (around : Nat) (p : Properties) : Option Tree → Except Problem Node
  | none => ofNothing d p
  | some t => ofTree d false around p t

/-- The fields of a block mapping. The result also says whether comments come last;
nothing else may follow them. -/
def fieldsOf (d : Directives) (indent : Nat) :
    List (Item Tree) → Except Problem (List (Node × Option Node) × Bool)
  | [] => .ok ([], false)
  | item :: earlier => do
    let (fields, hasEnded) ← fieldsOf d indent earlier
    match ← fieldOf d indent item with
    | none => return (fields, true)
    | some (key, value) =>
      if hasEnded then .error .contentAfterComment
      return (← addField fields key value, false)

/-- A field of a block mapping, unless the item only holds comments. -/
def fieldOf (d : Directives) (indent : Nat) :
    Item Tree → Except Problem (Option (Node × Option Node))
  | ⟨before, key, between, value, _⟩ => do
    let p ← Properties.ofRow ⟨false, .question, .ofParts key between, indent, true⟩ before
    if p.indicator.isNone && p.isBare && between.isNone then return none
    match p.indicator with
    | none => checkImplicitKey indent p key
    | some mark => if mark.indent ≠ indent then .error .badIndentation
    let keyNode ← ofPart d indent p key
    let startsLine := key.all Tree.isBlockScalar
    let q ← Properties.ofRow ⟨false, .colon, .ofParts value none, indent, startsLine⟩
      (between.getD [])
    match q.indicator with
    | some colon =>
      if p.indicator.isNone then checkImplicitValue p q key value colon
      return some (keyNode, some (← ofPart d indent q value))
    | none =>
      if p.indicator.isNone then .error .missingColon
      return some (keyNode, none)

/-- The items of a block sequence. -/
def itemsOf (d : Directives) (indent : Nat) : List (Item Tree) → Except Problem (List Node)
  | [] => .ok []
  | item :: earlier => do
    let items ← itemsOf d indent earlier
    match ← itemOf d indent item with
    | none => return items
    | some node => return items ++ [node]

/-- An item of a block sequence, unless it only holds comments. -/
def itemOf (d : Directives) (indent : Nat) : Item Tree → Except Problem (Option Node)
  | ⟨before, _, _, value, _⟩ => do
    let p ← Properties.ofRow ⟨false, .dash, .ofParts value none, indent, true⟩ before
    if p.indicator.isNone then
      if p.isBare && value.isNone then return none else .error .missingDash
    return some (← ofPart d indent p value)

/-- The items of a flow collection; `isLast` says that the latest one is the last. -/
def flowItemsOf (d : Directives) (isMapping isLast : Bool) :
    List (Item Tree) → Except Problem (List FlowItem)
  | [] => .ok []
  | item :: earlier => do
    let items ← flowItemsOf d isMapping false earlier
    match ← flowItemOf d isMapping earlier.isEmpty isLast item with
    | none => return items
    | some found => return items ++ [found]

/-- An item of a flow collection. The place behind the last comma may be empty. -/
def flowItemOf (d : Directives) (isMapping isFirst isLast : Bool) :
    Item Tree → Except Problem (Option FlowItem)
  | ⟨before, key, between, value, _⟩ => do
    let p ← Properties.ofRow ⟨true, .question, .ofParts key between, 0, false⟩ before
    let isImplicit := p.indicator.isNone
    if isFirst && p.hasComma then .error (.unexpected [CodeUnit.comma])
    if isImplicit && p.isBare && between.isNone && value.isNone then
      if isLast then return none else .error (.unexpected [CodeUnit.comma])
    if isImplicit && !isMapping && key.any spansLines then .error .keyOverLines
    if !isFirst && !p.hasComma then .error .missingComma
    if isImplicit && !isMapping && between.isNone then
      return some (.single (← ofPart d 0 p value))
    let keyNode ← ofPart d 0 p key
    let row := between.getD []
    let q ← Properties.ofRow ⟨true, .colon, .ofParts value none, 0, false⟩ row
    match q.indicator with
    | some colon =>
      if isImplicit && !isMapping then checkPair p key row colon
      return some (.pair keyNode (some (← ofPart d 0 q value)))
    | none =>
      if value.isSome then .error .missingColon
      return some (.pair keyNode none)

end

end Node

end JadeEditor.Yaml
