import JadeEditor.Yaml.Problem
import JadeEditor.Yaml.Tree

/-!
# Growing the tree

The nodes that are still open stand in each other. A lexeme goes to the innermost
one, which takes it or declines it; a node that declines is complete and becomes
part of the node around it, which is asked next. At the outside stands the
document.
-/

namespace JadeEditor.Yaml

set_option autoImplicit false

/-- What a lexeme does to the innermost open node. -/
inductive Effect where
  | grow (node : Tree)
  /-- A node starts inside. -/
  | nest (node inner : Tree)
  /-- The lexeme is the last of the node. -/
  | finish (node : Tree)
  /-- The node turns out to be the first key of a mapping. -/
  | becomeKey (key : Tree) (between : List Lexeme)
  | decline

/-- Parts a row into what belongs to the node around and what belongs to a key that
comes next on the same line. -/
def splitKeyRow (row : List Lexeme) : List Lexeme × List Lexeme :=
  let line := (row.reverse.takeWhile fun x => !x.kind.startsKeyLine).reverse
  let own := line.dropWhile (·.kind = .space)
  (row.take (row.length - own.length), own)

/-- Parts the row behind a key without a value: the lines from the second line end
on belong to the next item. A comment that is indented deeper belongs to the key. -/
def splitNextRow (indent : Nat) (row : List Lexeme) : List Lexeme × List Lexeme :=
  let isLoose (x : Lexeme) : Bool :=
    x.kind = .newline || x.kind = .space || (x.kind = .comment && x.indent ≤ indent)
  let loose := (row.reverse.takeWhile isLoose).reverse
  let behind := (loose.dropWhile (·.kind ≠ .newline)).drop 1
  let next := behind.dropWhile (·.kind ≠ .newline)
  (row.take (row.length - next.length), next)

/-- Takes the row of a coming key off the last item. -/
def Tree.giveKeyRow : Tree → Tree × List Lexeme
  | .mapping indent (item :: earlier) =>
    match item.between with
    | some between =>
      let (kept, own) := splitKeyRow between
      (.mapping indent ({ item with between := some kept } :: earlier), own)
    | none =>
      let (kept, own) := splitKeyRow item.before
      (.mapping indent ({ item with before := kept } :: earlier), own)
  | .sequence indent (item :: earlier) =>
    let (kept, own) := splitKeyRow item.before
    (.sequence indent ({ item with before := kept } :: earlier), own)
  | t => (t, [])

/-- The node a lexeme starts, given the row in front of it; with it what stays of
the row, and whether the node has a key on this line. -/
def startNode? (x : Lexeme) (row : List Lexeme) : Option (Tree × List Lexeme × Bool) :=
  match x.kind with
  | .reference | .plain | .singleQuoted | .doubleQuoted | .block _ => some (.scalar x [], row, false)
  | .openMapping | .openSequence => some (.flow x [] [], row, false)
  | .dash => some (.sequence x.indent [{ before := [x] }], row, false)
  | .question =>
    let (kept, own) := splitKeyRow row
    some (.startExplicit x.indent (own ++ [x]), kept, true)
  | .colon =>
    let (kept, own) := splitKeyRow row
    some (.startMapping x.indent own none [x], kept, true)
  | _ => none

/-- Space, a comment or a line end in a block collection. A comment that is indented
deeper than the collection goes to the value before it. -/
def addIdle (x : Lexeme) (indent : Nat) : List (Item Tree) → List (Item Tree)
  | [] => [{ before := [x] }]
  | item :: earlier =>
    match item.value, item.between with
    | some v, _ =>
      let isCommented := ((v.trail?.getD []).getLast?).any (·.kind = .comment)
      if x.kind = .newline && isCommented then
        { item with value := some (v.extendTrail [x]) } :: earlier
      else { before := [x] } :: item :: earlier
    | none, some between => { item with between := some (between ++ [x]) } :: earlier
    | none, none =>
      let isInner := x.kind = .comment && indent < x.indent
        && item.before.all fun y => y.kind = .newline || y.kind = .space
      let last? := earlier.head?.bind (·.value)
      match earlier, last? with
      | previous :: others, some v =>
        if isInner && v.trail?.isSome then
          { previous with value := some (v.extendTrail (item.before ++ [x])) } :: others
        else { item with before := item.before ++ [x] } :: earlier
      | _, _ => { item with before := item.before ++ [x] } :: earlier

/-- A colon in a mapping. `next` is the row of the item that the colon may start. -/
def colonInMapping (x : Lexeme) (indent : Nat) (atNext : Bool) (next : List Lexeme)
    (item : Item Tree) (earlier : List (Item Tree)) : Effect :=
  let grown (items : List (Item Tree)) : Effect := .grow (.mapping indent items)
  let nested (item : Item Tree) (inner : Tree) : Effect :=
    .nest (.mapping indent (item :: earlier)) inner
  let extended (between : List Lexeme) : Effect :=
    grown ({ item with between := some (between ++ next ++ [x]) } :: earlier)
  match item.isExplicit, item.between with
  | true, none =>
    if holds .newline item.before then grown ({ item with between := some [x] } :: earlier)
    else
      let (kept, own) := splitKeyRow item.before
      nested { item with before := kept } (.startMapping x.indent own none [x])
  | true, some between =>
    if item.value.isSome then
      grown ({ before := [], between := some [x] } :: item :: earlier)
    else if holds .colon between then nested item (.startMapping x.indent next none [x])
    else
      match item.key with
      | some key =>
        if !key.isBlockCollection && !key.isBlockScalar && !holds .newline between then
          let (kept, own) := splitKeyRow item.before
          nested { item with before := kept, key := none, between := none }
            (.startMapping x.indent own (some key) (between ++ [x]))
        else extended between
      | none => extended between
  | false, none => grown ({ item with between := some [x] } :: earlier)
  | false, some between =>
    if item.value.isSome || atNext then
      grown ({ before := next, between := some [x] } :: item :: earlier)
    else if holds .colon between then nested item (.startMapping x.indent [] none [x])
    else extended between

/-- A lexeme in a block mapping; the result also says whether a key has been read
on this line. -/
def inMapping (x : Lexeme) (onKeyLine : Bool) (indent : Nat) :
    List (Item Tree) → Except Problem (Effect × Bool)
  | [] => .ok (.decline, onKeyLine)
  | item :: earlier =>
    if x.isIdle then
      .ok (.grow (.mapping indent (addIdle x indent (item :: earlier))),
        onKeyLine && x.kind ≠ .newline)
    else if x.indent < indent then .ok (.decline, onKeyLine)
    else
      let atIndent := !onKeyLine && x.indent == indent
      let atNext := atIndent && (item.between.isSome || item.isExplicit) && x.kind ≠ .dash
      let (kept, next) :=
        if atNext && item.value.isNone then splitNextRow indent (item.between.getD []) else
          (item.between.getD [], [])
      let item := { item with between := item.between.map fun _ => kept }
      let startsItem := atNext || item.value.isSome
      let grown (items : List (Item Tree)) : Effect := .grow (.mapping indent items)
      match x.kind with
      | .anchor | .tag =>
        if startsItem then .ok (grown ({ before := next ++ [x] } :: item :: earlier), true)
        else
          match item.between with
          | some between =>
            .ok (grown ({ item with between := some (between ++ [x]) } :: earlier), onKeyLine)
          | none =>
            .ok (grown ({ item with before := item.before ++ [x] } :: earlier), onKeyLine)
      | .question =>
        if item.between.isNone && !item.isExplicit then
          let item := { item with before := item.before ++ [x], isExplicit := true }
          .ok (grown (item :: earlier), true)
        else if startsItem then
          .ok (grown ({ before := next ++ [x], isExplicit := true } :: item :: earlier), true)
        else
          .ok (.nest (.mapping indent (item :: earlier)) (.startExplicit x.indent [x]), true)
      | .colon => .ok (colonInMapping x indent atNext next item earlier, true)
      | .reference | .plain | .singleQuoted | .doubleQuoted =>
        let scalar := Tree.scalar x []
        if startsItem then
          .ok (grown ({ before := next, key := some scalar, between := some [] }
            :: item :: earlier), true)
        else if item.between.isSome then
          .ok (.nest (.mapping indent (item :: earlier)) scalar, onKeyLine)
        else
          .ok (grown ({ item with key := some scalar, between := some [] } :: earlier), true)
      | .dash =>
        if !item.isExplicit && item.between.any fun row => !holds .newline row then
          .error .missingNewline
        else
          .ok (.nest (.mapping indent (item :: earlier)) (.sequence x.indent [{ before := [x] }]),
            onKeyLine)
      | .openMapping | .openSequence | .block _ =>
        let inner := if x.kind.isBlock then Tree.scalar x [] else .flow x [] []
        let items := if atIndent then { before := next } :: item :: earlier else item :: earlier
        .ok (.nest (.mapping indent items) inner, onKeyLine)
      | _ => .ok (.decline, onKeyLine)

/-- A lexeme in a block sequence. -/
def inSequence (x : Lexeme) (onKeyLine : Bool) (indent : Nat) :
    List (Item Tree) → Effect × Bool
  | [] => (.decline, onKeyLine)
  | item :: earlier =>
    let isProperty := x.kind = .anchor ∨ x.kind = .tag
    if x.isIdle then (.grow (.sequence indent (addIdle x indent (item :: earlier))), onKeyLine)
    else if isProperty ∧ item.value.isNone ∧ indent < x.indent then
      (.grow (.sequence indent ({ item with before := item.before ++ [x] } :: earlier)), onKeyLine)
    else if x.kind = .dash ∧ x.indent = indent then
      let items :=
        if item.value.isSome || holds .dash item.before then { before := [x] } :: item :: earlier
        else { item with before := item.before ++ [x] } :: earlier
      (.grow (.sequence indent items), onKeyLine)
    else if x.indent ≤ indent then (.decline, onKeyLine)
    else
      match startNode? x item.before with
      | some (inner, kept, hasKey) =>
        (.nest (.sequence indent ({ item with before := kept } :: earlier)) inner,
          onKeyLine || hasKey)
      | none => (.decline, onKeyLine)

/-- In a flow sequence, a key that no colon has followed is an item. -/
def settleItem (item : Item Tree) : Item Tree :=
  match item.key, item.between, item.value with
  | some key, some between, none =>
    if holds .question item.before || holds .colon between then item
    else { item with key := none, between := none, value := some (key.extendTrail between) }
  | _, _, _ => item

/-- A lexeme in a flow collection that is not closed yet. -/
def inOpenFlow (x opening : Lexeme) (items : List (Item Tree)) : Except Problem Effect :=
  let grown (items : List (Item Tree)) : Except Problem Effect :=
    .ok (.grow (.flow opening items []))
  /- The latest item, unless it is complete. -/
  let open? := items.head?.filter (·.value.isNone)
  let earlier := items.drop 1
  match x.kind with
  | .comma | .question =>
    match items.head?.filter (·.between.isNone) with
    | some item => grown ({ item with before := item.before ++ [x] } :: earlier)
    | none => grown ({ before := [x] } :: items)
  | .colon =>
    match open? with
    | some item =>
      grown ({ item with between := some (item.between.getD [] ++ [x]) } :: earlier)
    | none => grown ({ before := [], between := some [x] } :: items)
  | .space | .comment | .newline | .anchor | .tag =>
    match open? with
    | some item =>
      match item.between with
      | some between => grown ({ item with between := some (between ++ [x]) } :: earlier)
      | none => grown ({ item with before := item.before ++ [x] } :: earlier)
    | none => grown ({ before := [x] } :: items)
  | .reference | .plain | .singleQuoted | .doubleQuoted =>
    let scalar := Tree.scalar x []
    match open? with
    | some item =>
      if item.between.isSome then .ok (.nest (.flow opening items []) scalar)
      else grown ({ item with key := some scalar, between := some [] } :: earlier)
    | none => grown ({ before := [], key := some scalar, between := some [] } :: items)
  | .closeMapping =>
    if opening.kind = .openMapping then .ok (.grow (.flow opening items [x]))
    else .error .unclosedFlow
  | .closeSequence =>
    if opening.kind = .openSequence then .ok (.grow (.flow opening (items.map settleItem) [x]))
    else .error .unclosedFlow
  | .openMapping | .openSequence => .ok (.nest (.flow opening items []) (.flow x [] []))
  | .dash | .block _ => .error .blockInFlow
  | _ => .ok .decline

/-- A lexeme behind a scalar or a closed flow collection. -/
def inTrail (x : Lexeme) (onKeyLine : Bool) (node : Tree) : Except Problem (Effect × Bool) :=
  match x.kind with
  | .newline => .ok (.finish (node.extendTrail [x]), false)
  | .space | .comment => .ok (.grow (node.extendTrail [x]), onKeyLine)
  | .colon | .comma | .closeMapping | .closeSequence | .documentStart => .ok (.decline, onKeyLine)
  | _ => .error (.unexpected x.text)

/-- A lexeme behind a closed flow collection, which may turn out to be a key. -/
def inClosedFlow (x : Lexeme) (onKeyLine : Bool) (around : Option Tree) (opening : Lexeme)
    (items : List (Item Tree)) (ending : List Lexeme) : Except Problem (Effect × Bool) :=
  let node := Tree.flow opening items ending
  let isKeyThere := match around with
    | some (.mapping indent (item :: _)) =>
      (x.kind == Kind.colon && indent == opening.indent)
        || (x.kind == Kind.newline && item.between.isNone)
    | _ => false
  if isKeyThere then .ok (.decline, onKeyLine)
  else if x.kind == Kind.colon && !around.any Tree.isFlow then
    .ok (.becomeKey (.flow opening items (ending.take 1)) (ending.drop 1 ++ [x]), true)
  else inTrail x onKeyLine node

/-- A lexeme for the innermost node; `around` is the node it stands in. -/
def offer (x : Lexeme) (onKeyLine : Bool) (around : Option Tree) :
    Tree → Except Problem (Effect × Bool)
  | .scalar lexeme trail =>
    if x.kind = .colon then
      if around.any Tree.isFlow then .error .blockInFlow
      else .ok (.becomeKey (.scalar lexeme []) (trail ++ [x]), true)
    else inTrail x onKeyLine (.scalar lexeme trail)
  | .mapping indent items => inMapping x onKeyLine indent items
  | .sequence indent items => .ok (inSequence x onKeyLine indent items)
  | .flow opening items ending =>
    if ending.isEmpty then do return (← inOpenFlow x opening items, onKeyLine)
    else inClosedFlow x onKeyLine around opening items ending

/-- Takes an item that holds nothing but comments and line ends off the end of a
block collection, if they belong to the node around it. -/
def releaseIdle (t : Tree) : Tree × Option (List Lexeme) :=
  let isReleased (indent : Nat) (item : Item Tree) : Bool :=
    item.between.isNone && item.value.isNone && !item.before.isEmpty
      && item.before.all (·.isIdle)
      && (indent == 0 || item.before.all fun x => x.kind ≠ .comment || x.indent < indent)
  match t with
  | .mapping indent (item :: earlier) =>
    if isReleased indent item then (.mapping indent earlier, some item.before) else (t, none)
  | .sequence indent (item :: earlier) =>
    if isReleased indent item then (.sequence indent earlier, some item.before) else (t, none)
  | _ => (t, none)

/-- Adds an item for what a complete value has released. -/
def addReleased (released : Option (List Lexeme)) (items : List (Item Tree)) :
    List (Item Tree) :=
  match released with
  | some row => { before := row } :: items
  | none => items

/-- Makes a complete node part of the node around it. -/
def attach (onKeyLine : Bool) (node : Tree) : (around : Tree) → Tree × Bool
  | .mapping indent (item :: earlier) =>
    if item.value.isSome then
      (.mapping indent ({ before := [], key := some node, between := some [] } :: item :: earlier),
        true)
    else if item.between.isSome then
      let (value, released) := releaseIdle node
      (.mapping indent (addReleased released ({ item with value := some value } :: earlier)),
        onKeyLine)
    else
      (.mapping indent ({ item with key := some node, between := some [] } :: earlier),
        !item.isExplicit)
  | .sequence indent (item :: earlier) =>
    let (value, released) := releaseIdle node
    let items :=
      if item.value.isSome then { before := [], value := some value } :: item :: earlier
      else { item with value := some value } :: earlier
    (.sequence indent (addReleased released items), onKeyLine)
  | .flow opening (item :: earlier) ending =>
    let items :=
      if item.value.isSome then
        { before := [], key := some node, between := some [] } :: item :: earlier
      else if item.between.isSome then { item with value := some node } :: earlier
      else { item with key := some node, between := some [] } :: earlier
    (.flow opening items ending, onKeyLine)
  | .flow opening [] ending =>
    (.flow opening [{ before := [], key := some node, between := some [] }] ending, onKeyLine)
  | t => (t, onKeyLine)

/-- A document and the nodes that are open in it, the innermost first. -/
structure OpenDocument where
  start : List Lexeme := []
  value : Option Tree := none
  nodes : List Tree := []
  onKeyLine : Bool := false

namespace OpenDocument

/-- Makes a complete node part of the node around it or of the document. -/
def close (d : OpenDocument) (node : Tree) : (around : List Tree) → OpenDocument
  | [] => { d with value := some (releaseIdle node).1, nodes := [] }
  | outer :: rest =>
    let (outer, onKeyLine) := attach d.onKeyLine node outer
    { d with nodes := outer :: rest, onKeyLine := onKeyLine }

/-- Opens a node; a block scalar is complete at once. -/
def enter (d : OpenDocument) (inner : Tree) (around : List Tree) : OpenDocument :=
  if inner.isBlockScalar then d.close inner around else { d with nodes := inner :: around }

/-- A lexeme for the document itself. -/
def takeOutside (d : OpenDocument) (x : Lexeme) : Except Problem OpenDocument :=
  let isProperty := x.kind = .anchor ∨ x.kind = .tag
  if d.value.isSome then
    if x.isIdle then .ok d
    else if x.kind = .documentStart then .error .severalDocuments
    else .error (.unexpected x.text)
  else if x.kind = .documentStart then
    if d.start.all (·.isIdle) then .ok { d with start := d.start ++ [x] }
    else .error .severalDocuments
  else if x.isIdle ∨ isProperty then .ok { d with start := d.start ++ [x] }
  else
    match startNode? x d.start with
    | some (node, kept, hasKey) =>
      .ok (enter { d with start := kept, onKeyLine := d.onKeyLine || hasKey } node [])
    | none => .error (.unexpected x.text)

/-- Offers a lexeme to a node and, as long as it is declined, to those around it. -/
def offerFrom (x : Lexeme) (d : OpenDocument) (node : Tree) :
    (around : List Tree) → Except Problem OpenDocument
  | [] => do
    let (effect, onKeyLine) ← offer x d.onKeyLine none node
    let d := { d with onKeyLine := onKeyLine }
    match effect with
    | .grow node => return { d with nodes := [node] }
    | .nest node inner => return d.enter inner [node]
    | .finish node => return d.close node []
    | .becomeKey key between =>
      let (kept, own) := splitKeyRow d.start
      return { d with
        start := kept, nodes := [.startMapping key.indent own (some key) between] }
    | .decline => (d.close node []).takeOutside x
  | outer :: rest => do
    let (effect, onKeyLine) ← offer x d.onKeyLine (some outer) node
    let d := { d with onKeyLine := onKeyLine }
    match effect with
    | .grow node => return { d with nodes := node :: outer :: rest }
    | .nest node inner => return d.enter inner (node :: outer :: rest)
    | .finish node => return d.close node (outer :: rest)
    | .becomeKey key between =>
      let (outer, own) := outer.giveKeyRow
      return { d with
        nodes := .startMapping key.indent own (some key) between :: outer :: rest }
    | .decline =>
      let (outer, onKeyLine) := attach d.onKeyLine node outer
      offerFrom x { d with onKeyLine := onKeyLine } outer rest

def take (d : OpenDocument) (x : Lexeme) : Except Problem OpenDocument :=
  match d.nodes with
  | [] => d.takeOutside x
  | node :: around => offerFrom x d node around

/-- Completes the open nodes. -/
def closeFrom (onKeyLine : Bool) (node : Tree) : (around : List Tree) → Tree
  | [] => (releaseIdle node).1
  | outer :: rest =>
    let (outer, onKeyLine) := attach onKeyLine node outer
    closeFrom onKeyLine outer rest

def closeAll (d : OpenDocument) : OpenDocument :=
  match d.nodes with
  | [] => d
  | node :: around => { d with value := some (closeFrom d.onKeyLine node around), nodes := [] }

end OpenDocument

end JadeEditor.Yaml
