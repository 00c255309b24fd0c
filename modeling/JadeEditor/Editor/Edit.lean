import JadeEditor.Editor.State

/-!
# Edits and notifications

An edit announces its change at once, except inside a group, which announces once at its
end and takes back everything when it fails. With an announcement the version goes up by one
and the live listeners are called in the order of subscription. One that was dismissed before
its turn is passed over; one that fails ends the round.

The edits of a listener start rounds of their own inside the current one. Each edit is
therefore given what announces its change. A listener has one turn less left when it takes
one, so the number of turns that are left bounds how deep rounds nest, and is the fuel of the
recursion. The edits at the end of the module are those of the host.
-/

namespace JadeEditor

set_option autoImplicit false

variable {α : Type}

namespace Editor

/-! ## Edits, given what announces them -/

/-- Puts the cursor elsewhere; nothing is announced. -/
def setCursor (p : Position) : Edit Unit :=
  modify fun s => { s with document := s.document.moveTo p }

def openGroup (s : Editor) : Editor := { s with depth := s.depth + 1 }

/-- Takes the document back to `before`, with the announcement that was pending then. -/
def restore (before s : Editor) : Editor :=
  { s with document := before.document, dirty := before.dirty }

/-- Goes on with the editor that a failure leaves behind. -/
def attempt (edit : Edit Unit) : Edit Unit := fun s =>
  match edit s with
  | .ok _ s => .ok () s
  | .error _ s => .ok () s

section Given

variable (announce : Edit Unit)

/-- Applies a change to the document and announces it unless a group is open. -/
def mutateWith (change : Document → Document) : Edit Unit := fun s =>
  let s := { s with document := change s.document, dirty := true }
  if s.depth = 0 then announce s else .ok () s

def insertTextWith (t : Text) : Edit Unit :=
  if t.isEmpty then pure () else mutateWith announce (·.insert t)

/-- Sets the indentation of the cursor's line. Only a line that changes is announced. -/
def indentLineWith (level : Rat) : Edit Unit := fun s =>
  let next := s.document.indentLine level
  if next.lines = s.document.lines then .ok () { s with document := next }
  else mutateWith announce (fun _ => next) s

/-- Closes a group, and announces its changes if it was the outermost one. -/
def closeGroupWith : Edit Unit := fun s =>
  let s := { s with depth := s.depth - 1 }
  if s.depth = 0 then announce s else .ok () s

/-- Ends the group that was opened on `before`. A failure takes its changes back;
a failure of the announcement replaces the one of the group. -/
def endGroupWith (before : Editor) :
    EStateM.Result Failure Editor α → EStateM.Result Failure Editor α
  | .ok a s =>
    match closeGroupWith announce s with
    | .ok _ s => .ok a s
    | .error e s => .error e s
  | .error e s =>
    match closeGroupWith announce (restore before s) with
    | .ok _ s => .error e s
    | .error e s => .error e s

/-- Runs several edits as one. -/
def atomicWith (edit : Edit α) : Edit α := fun s => endGroupWith announce s (edit s.openGroup)

end Given

end Editor

/-! ## Listeners -/

namespace Stroke

open Editor

def run (announce : Edit Unit) : Stroke → Edit Unit
  | moveTo p => setCursor p
  | insertText t => insertTextWith announce t
  | insertLineBreak => mutateWith announce Document.breakLine
  | indentLine level => indentLineWith announce level
  | unsubscribe name => modify (·.unsubscribe name)

end Stroke

namespace Turn

open Editor

def run (announce : Edit Unit) : Turn → Edit Unit
  | done => pure ()
  | fail failure => throw failure
  | stroke s rest => do
    s.run announce
    rest.run announce
  | atomic body rest => do
    atomicWith announce (body.run announce)
    rest.run announce
  | attempt body rest => do
    Editor.attempt (body.run announce)
    rest.run announce

end Turn

def Habit.run (l : Listener) : Habit → Edit Unit
  | watch => pure ()
  | refuse => throw (.refused l.name)
  | dismiss target => modify (·.unsubscribe target)
  | outline => modify fun s => s.note (.outlined l s.document.outline)

namespace Editor

/-- The editor when a listener has noted its call and goes on to react. -/
def heard (s : Editor) (l : Listener) : Editor :=
  (s.note (.called l s.version s.document.lines)).spend l.key

def call (announce : Edit Unit) (l : Listener) : Edit Unit := do
  modify (·.heard l)
  l.reaction.habit.run l
  l.reaction.turn.run announce

/-- Calls those of the subscriptions `keys` that are live when their turn comes. -/
def callAll (announce : Edit Unit) : (keys : List Nat) → Edit Unit
  | [] => pure ()
  | key :: keys => do
    match (← get).listener? key with
    | none => pure ()
    | some l => call announce l
    callAll announce keys

/-! ## Rounds -/

/-- One round of notifications, if there is something to announce. -/
def flushWith (announce : Edit Unit) : Edit Unit := fun s =>
  if s.dirty then
    callAll announce (s.listeners.map Listener.key)
      { s with dirty := false, version := s.version + 1 }
  else .ok () s

/-- Rounds nested at most `fuel` deep. -/
def flushNested : (fuel : Nat) → Edit Unit
  | 0 => pure ()
  | fuel + 1 => flushWith (flushNested fuel)

/-- Announces the pending change, if there is one. -/
def flush : Edit Unit := fun s => flushNested (s.budget + 1) s

/-! ## Edits -/

def mutate (change : Document → Document) : Edit Unit := mutateWith flush change

def insertText (t : Text) : Edit Unit := insertTextWith flush t

def insertLineBreak : Edit Unit := mutate Document.breakLine

def indentLine (level : Rat) : Edit Unit := indentLineWith flush level

def closeGroup : Edit Unit := closeGroupWith flush

def endGroup (before : Editor) : EStateM.Result Failure Editor α → EStateM.Result Failure Editor α :=
  endGroupWith flush before

def atomic (edit : Edit α) : Edit α := atomicWith flush edit

end Editor

end JadeEditor
