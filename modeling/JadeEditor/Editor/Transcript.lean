import JadeEditor.Editor.Script

/-!
# Transcripts

The record of an action shows its outcome, the records of its parts, the document
and version behind it, and the events and log messages that came up since the
record before. The actions of a group end at the first failure; at top level the
script goes on.
-/

namespace JadeEditor

set_option autoImplicit false

structure Record where
  action : Action
  outcome : Except Failure Answer
  /-- The records of the parts of a group. -/
  parts : List Record
  document : Document
  version : Nat
  events : List Event
  log : List Text

/-- An editor under a script: how much of its events and log has been recorded. -/
structure Session where
  editor : Editor
  indenter : Indenter Failure
  eventsShown : Nat := 0
  logShown : Nat := 0

namespace Session

/-- Writes the record of an action that has just ended. -/
def record (s : Session) (action : Action) (outcome : Except Failure Answer) (parts : List Record) :
    Record where
  action := action
  outcome := outcome
  parts := parts
  document := s.editor.document
  version := s.editor.version
  events := s.editor.events.drop s.eventsShown
  log := s.editor.log.drop s.logShown

def recorded (s : Session) : Session :=
  { s with eventsShown := s.editor.events.length, logShown := s.editor.log.length }

/-- Continues with the result of an edit. -/
def conclude {α : Type} (s : Session) (f : α → Answer) :
    EStateM.Result Failure Editor α → Except Failure Answer × Session
  | .ok a editor => (.ok (f a), { s with editor })
  | .error e editor => (.error e, { s with editor })

/-- How a list of actions ended: the first failure, if any. -/
def outcome (s : Session) : Option Failure → EStateM.Result Failure Editor Unit
  | none => .ok () s.editor
  | some failure => .error failure s.editor

end Session

mutual

/-- Runs an action and writes its record. -/
def Action.run (s : Session) : Action → Record × Session
  | .perform operation =>
    let (outcome, s) := s.conclude id (operation.run s.indenter s.editor)
    (s.record (.perform operation) outcome [], s.recorded)
  | .atomic actions result =>
    let before := s.editor
    let (parts, failure?, s) := runGroup { s with editor := before.openGroup } actions
    let (outcome, s) :=
      s.conclude (fun _ => .data result) (Editor.endGroup before (s.outcome failure?))
    (s.record (.atomic actions result) outcome parts, s.recorded)
  | .attempt actions =>
    let (parts, failure?, s) := runGroup s actions
    let answer := match failure? with
      | none => Answer.nothing
      | some failure => Answer.failure failure
    (s.record (.attempt actions) (.ok answer) parts, s.recorded)

/-- Runs the actions of a group up to the first that fails. -/
def runGroup (s : Session) : List Action → List Record × Option Failure × Session
  | [] => ([], none, s)
  | action :: actions =>
    let (record, s) := action.run s
    match record.outcome with
    | .error failure => ([record], some failure, s)
    | .ok _ =>
      let (records, failure?, s) := runGroup s actions
      (record :: records, failure?, s)

end

/-- Runs a script, whatever fails. -/
def Session.run (s : Session) : List Action → List Record
  | [] => []
  | action :: actions =>
    let (record, s) := action.run s
    record :: s.run actions

end JadeEditor
