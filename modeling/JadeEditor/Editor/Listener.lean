import JadeEditor.Structure.Outline

/-!
# Listeners

When a listener is called it notes what it sees, does what it does on every call, and then
takes a turn: a finite program of edits, which may open groups, fail, catch failures and end
subscriptions. The turns are listed beforehand, one for each of the next calls. A listener that
decides as it goes does in each run what some list of turns says.
-/

namespace JadeEditor

set_option autoImplicit false

/-- Why an edit fails. -/
inductive Failure where
  /-- Raised by the edit itself or by a rule for indentation. -/
  | raised (reason : Text)
  /-- Raised by the listener of the given name. -/
  | refused (listener : Text)
  deriving DecidableEq

def Failure.message : Failure → Text
  | raised reason => reason
  | refused listener => utf16 "listener " ++ listener

inductive Stroke where
  | moveTo (p : Position)
  | insertText (text : Text)
  | insertLineBreak
  | indentLine (level : Rat)
  /-- Ends the subscription of the given name. -/
  | unsubscribe (name : Text)
  deriving DecidableEq

/-- What a listener does on one of its calls. -/
inductive Turn where
  | done
  | fail (failure : Failure)
  | stroke (stroke : Stroke) (rest : Turn)
  /-- Runs the body as one edit. -/
  | atomic (body rest : Turn)
  /-- Runs the body and goes on even if that fails. -/
  | attempt (body rest : Turn)
  deriving DecidableEq

/-- What a listener does on each of its calls. -/
inductive Habit where
  | watch
  | refuse
  /-- Ends the subscription of the given name. -/
  | dismiss (target : Text)
  /-- Notes the names of the definitions as well. -/
  | outline
  deriving DecidableEq

structure Reaction where
  habit : Habit := .watch
  /-- What follows on the next calls, one turn for each. -/
  turns : List Turn := []
  deriving DecidableEq

namespace Reaction

def watch : Reaction := {}

def refuse : Reaction := { habit := .refuse }

def dismiss (target : Text) : Reaction := { habit := .dismiss target }

def outline : Reaction := { habit := .outline }

/-- Inserts the text at the cursor, on as many calls as are left. -/
def insert (text : Text) (left : Nat) : Reaction :=
  { turns := List.replicate left (.stroke (.insertText text) .done) }

/-- The turn that the next call brings. -/
def turn (r : Reaction) : Turn := r.turns.headD .done

/-- What is left behind a call. -/
def spent (r : Reaction) : Reaction := { r with turns := r.turns.tail }

end Reaction

structure Listener where
  /-- The number of the subscription. -/
  key : Nat
  name : Text
  reaction : Reaction
  deriving DecidableEq

def Listener.spent (l : Listener) : Listener := { l with reaction := l.reaction.spent }

/-- The turns a listener may still take. -/
def Listener.budget (l : Listener) : Nat := l.reaction.turns.length

/-- The turns the listeners may still take between them. -/
def Listener.budgets : List Listener → Nat
  | [] => 0
  | l :: ls => l.budget + budgets ls

/-- What a listener notes. -/
inductive Event where
  /-- The listener was called at this version and saw these lines. -/
  | called (listener : Listener) (version : Nat) (lines : List Text)
  /-- The listener computed the outline. -/
  | outlined (listener : Listener) (definitions : List Definition)
  deriving DecidableEq

end JadeEditor
