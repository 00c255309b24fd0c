import JadeEditor.Yaml.KeyText

/-!
# Values of nodes

Nodes are given their values in the order of the document. An alias stands for
the value of the latest node with its anchor; how often that may happen is
limited, since values that refer to each other grow very fast.
-/

namespace JadeEditor.Yaml

set_option autoImplicit false

/-- An anchored node that has been met. -/
structure Anchored where
  name : Text
  node : Node
  /-- The value; of a collection that is not complete, an empty one. -/
  value : Data
  /-- One more than the aliases to it so far. -/
  uses : Nat := 1
  /-- The most uses that one of its parts stands for; zero when not known. -/
  weight : Nat := 0

/-- The anchored nodes, the latest first. -/
abbrev Anchors := List Anchored

/-- The greatest product of uses and weight. -/
def maxUses : Nat := 100

mutual

def weightOf (anchors : Anchors) : Node → Nat
  | .scalar _ _ => 1
  | .reference name =>
    match anchors.find? fun a => a.name == name with
    | some a => a.uses * a.weight
    | none => 0
  | .sequence _ items => itemsWeight anchors items
  | .mapping _ fields => fieldsWeight anchors fields

def itemsWeight (anchors : Anchors) : List Node → Nat
  | [] => 0
  | node :: more => max (weightOf anchors node) (itemsWeight anchors more)

def fieldsWeight (anchors : Anchors) : List (Node × Option Node) → Nat
  | [] => 0
  | field :: more => max (fieldWeight anchors field) (fieldsWeight anchors more)

def fieldWeight (anchors : Anchors) : Node × Option Node → Nat
  | (key, value) => max (weightOf anchors key) (partWeight anchors value)

def partWeight (anchors : Anchors) : Option Node → Nat
  | none => 1
  | some node => weightOf anchors node

end

namespace Anchors

def add (anchors : Anchors) (anchor : Option Text) (node : Node) (value : Data) : Anchors :=
  match anchor with
  | some name => ⟨name, node, value, 1, 0⟩ :: anchors
  | none => anchors

/-- Completes the node that was added when there were `count` others. -/
def complete (anchors : Anchors) (anchor : Option Text) (count : Nat) (value : Data) : Anchors :=
  match anchor with
  | some _ =>
    anchors.modify (anchors.length - 1 - count) fun a => { a with value := value }
  | none => anchors

/-- The value of an alias, which is one more use of its node. -/
def use : Anchors → (name : Text) → Except Problem (Data × Anchors)
  | [], name => .error (.unknownAlias name)
  | a :: older, name =>
    if a.name = name then
      let used := { a with uses := a.uses + 1 }
      let weight := if a.weight = 0 then weightOf (used :: older) a.node else a.weight
      if maxUses < used.uses * weight then .error .tooManyAliases
      else .ok (a.value, { used with weight := weight } :: older)
    else do
      let (value, older) ← use older name
      return (value, a :: older)

end Anchors

/-- The name of the field whose key is the given node. -/
def fieldName (node : Node) : Data → Text
  | .null => []
  | .list _ | .record _ => node.keyText
  | d => d.plain

/-- Adds the fields of a mapping that are not there yet. -/
def mergeFields (fields more : List (Text × Data)) : List (Text × Data) :=
  more.foldl (fun done f =>
    if done.any fun g => g.1 == f.1 then done else Data.setField done f.1 f.2) fields

/-- Merges a mapping, or a list of mappings of which the first counts most. -/
def mergeInto (fields : List (Text × Data)) : Data → Except Problem (List (Text × Data))
  | .record more => .ok (mergeFields fields more)
  | .list sources => sources.foldlM (fun done d =>
      match d with
      | .record more => .ok (mergeFields done more)
      | _ => .error .badMerge) fields
  | _ => .error .badMerge

namespace Node

def isMerge : Node → Bool
  | .scalar _ s => s.isMerge
  | _ => false

/-- Whether a node is no alias, or one of an anchored node. -/
def isKnown (anchors : Anchors) : Node → Bool
  | .reference name => anchors.any fun a => a.name == name
  | _ => true

/-- Whether the aliases among the sources of a merge refer to something. -/
def hasKnownSources (anchors : Anchors) : Node → Bool
  | .sequence _ items => items.all (isKnown anchors)
  | node => isKnown anchors node

mutual

/-- The value of a node, given the anchored nodes before it. -/
def value (anchors : Anchors) : Node → Except Problem (Data × Anchors)
  | .scalar anchor s => .ok (s.value, anchors.add anchor (.scalar anchor s) s.value)
  | .reference name => anchors.use name
  | .sequence anchor items => do
    let begun := anchors.add anchor (.sequence anchor items) (.list [])
    let (values, met) ← itemValues begun items
    return (.list values, met.complete anchor anchors.length (.list values))
  | .mapping anchor fields => do
    let begun := anchors.add anchor (.mapping anchor fields) (.record [])
    let (named, met) ← fieldValues begun [] fields
    return (.record named, met.complete anchor anchors.length (.record named))

def itemValues (anchors : Anchors) : List Node → Except Problem (List Data × Anchors)
  | [] => .ok ([], anchors)
  | node :: more => do
    let (d, anchors) ← value anchors node
    let (ds, anchors) ← itemValues anchors more
    return (d :: ds, anchors)

/-- Adds the fields to those there are. -/
def fieldValues (anchors : Anchors) (done : List (Text × Data)) :
    List (Node × Option Node) → Except Problem (List (Text × Data) × Anchors)
  | [] => .ok (done, anchors)
  | field :: more => do
    let (done, anchors) ← fieldValue anchors done field
    fieldValues anchors done more

def fieldValue (anchors : Anchors) (done : List (Text × Data)) :
    Node × Option Node → Except Problem (List (Text × Data) × Anchors)
  | (key, part) => do
    if key.isMerge then
      if !part.any (hasKnownSources anchors) then .error .badMerge
      let (d, anchors) ← partValue anchors part
      return (← mergeInto done d, anchors)
    else
      let (k, anchors) ← value anchors key
      let (d, anchors) ← partValue anchors part
      return (Data.setField done (fieldName key k) d, anchors)

def partValue (anchors : Anchors) : Option Node → Except Problem (Data × Anchors)
  | none => .ok (.null, anchors)
  | some node => value anchors node

end

end Node

end JadeEditor.Yaml
