import JadeEditor.Editor.Listener

/-!
# The state of an editor

A document together with the listeners that watch it. The version counts the
notifications; `dirty` marks a change that has not been announced yet, and
`depth` the groups of edits in progress.
-/

namespace JadeEditor

set_option autoImplicit false

structure Editor where
  document : Document
  version : Nat := 0
  depth : Nat := 0
  dirty : Bool := false
  /-- The live subscriptions, in the order of subscription. -/
  listeners : List Listener := []
  /-- All subscriptions ever made, the latest first. -/
  subscriptions : List (Text × Nat) := []
  /-- What listeners have noted, in order. -/
  events : List Event := []
  log : List Text := []

namespace Editor

def ofDocument (d : Document) : Editor := { document := d }

def subscribe (s : Editor) (name : Text) (reaction : Reaction) : Editor :=
  let key := s.subscriptions.length
  { s with
    listeners := s.listeners ++ [⟨key, name, reaction⟩]
    subscriptions := (name, key) :: s.subscriptions }

/-- The number of the latest subscription of a name. -/
def subscription? (s : Editor) (name : Text) : Option Nat :=
  (s.subscriptions.find? fun e => e.1 = name).map Prod.snd

/-- Ends the latest subscription of a name, if it is still live. -/
def unsubscribe (s : Editor) (name : Text) : Editor :=
  { s with listeners := s.listeners.filter fun l => s.subscription? name ≠ some l.key }

def listener? (s : Editor) (key : Nat) : Option Listener := s.listeners.find? fun l => l.key = key

/-- Uses up a turn of the subscription with this number. -/
def spend (s : Editor) (key : Nat) : Editor :=
  { s with listeners := s.listeners.map fun l => if l.key = key then l.spent else l }

def note (s : Editor) (e : Event) : Editor := { s with events := s.events ++ [e] }

def say (s : Editor) (message : Text) : Editor := { s with log := s.log ++ [message] }

/-- The turns all listeners may still take, which bounds how deep notifications nest. -/
def budget (s : Editor) : Nat := Listener.budgets s.listeners

end Editor

/-- An edit: it works on an editor and gives a result or fails, and what it did to
the editor stays either way. -/
abbrev Edit (α : Type) := EStateM Failure Editor α

end JadeEditor
