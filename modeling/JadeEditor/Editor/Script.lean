import JadeEditor.Data.Basic
import JadeEditor.Editor.Command

/-!
# Scripts

A script drives an editor: queries, edits and commands, subscriptions, and groups
of these, which may be nested and may fail. Running a script leaves a transcript
with one record for each action that was begun.
-/

namespace JadeEditor

set_option autoImplicit false

/-- An action without parts. -/
inductive Operation where
  | look
  | lineCount
  | lineText (line : Int)
  | text (ending : LineEnding)
  | setCursor (p : Position)
  | insertText (text : Text)
  | insertLineBreak
  | indentLine (level : Rat)
  | fail (reason : Text)
  | subscribe (name : Text) (reaction : Reaction)
  | unsubscribe (name : Text)
  | lineStart (line : Int)
  | offset (p : Position)
  | textBeforeCursor
  | previousNonBlank (line : Int)
  | level (unit line : Int)
  | newline (unit : Int)
  | closeBrace (indenter : Indenter Failure)
  | previousDefinition (p : Position)
  | nextOpening (p : Position)
  | closing (p : Position)
  | toDefinitionStart (p : Position) (count : Int)
  | toBlockEnd (p : Position) (count : Int)
  | indentCommand
  | newlineCommand
  | closeBraceCommand
  | jumpToStart (count : Int)
  | jumpToEnd (count : Int)
  | outline
  | reindent

inductive Action where
  | perform (operation : Operation)
  /-- Runs the actions as one edit, with the given result. -/
  | atomic (actions : List Action) (result : Data)
  /-- Runs the actions and reports a failure as the result. -/
  | attempt (actions : List Action)

instance : Inhabited Action := ⟨.perform .look⟩

/-- What an action gives. -/
inductive Answer where
  | nothing
  | number (n : Int)
  | text (t : Text)
  | line (index : Option Nat)
  | position (p : Option Position)
  | newline (n : Newline)
  | travel (t : Travel)
  | definitions (ds : List Definition)
  | reindented (r : Reindented)
  | data (d : Data)
  | failure (f : Failure)

namespace Operation

/-- Asks the document. -/
def query (f : Document → Answer) : Edit Answer := return f (← get).document

/-- Runs an edit and turns its result into an answer. -/
def give {α : Type} (f : α → Answer) (edit : Edit α) : Edit Answer := return f (← edit)

/-- Runs an operation; `indenter` is the rule the commands are bound to. -/
def run (indenter : Indenter Failure) : Operation → Edit Answer
  | look => pure .nothing
  | lineCount => query fun d => .number d.lines.length
  | lineText line => query fun d => .text (d.lineText line)
  | text ending => query fun d => .text (d.text ending)
  | setCursor p => give (fun _ => .nothing) (Editor.setCursor p)
  | insertText t => give (fun _ => .nothing) (Editor.insertText t)
  | insertLineBreak => give (fun _ => .nothing) Editor.insertLineBreak
  | indentLine target => give (fun _ => .nothing) (Editor.indentLine target)
  | fail reason => throw (.raised reason)
  | subscribe name reaction => give (fun _ => .nothing) (modify (·.subscribe name reaction))
  | unsubscribe name => give (fun _ => .nothing) (modify (·.unsubscribe name))
  | lineStart line => query fun d => .number (d.lineStart line)
  | offset p => query fun d => .number (d.offset p)
  | textBeforeCursor => query fun d => .text d.textBeforeCursor
  | previousNonBlank line => query fun d => .line (d.previousNonBlank? line)
  | level unit line => query fun d => .number (d.level unit line)
  | newline unit => give .newline (Editor.newline unit)
  | closeBrace rule => give (fun _ => .nothing) (Editor.closeBrace rule)
  | previousDefinition p => query fun d => .position (d.previousDefinition? p)
  | nextOpening p => query fun d => .position (d.nextOpening? p)
  | closing p => query fun d => .position (d.closing? p)
  | toDefinitionStart p count => query fun d => .travel (d.toDefinitionStart p count)
  | toBlockEnd p count => query fun d => .travel (d.toBlockEnd p count)
  | indentCommand => give .number (Editor.indentCurrentLine indenter)
  | newlineCommand => give .newline (Editor.newlineCommand indenter)
  | closeBraceCommand => give (fun _ => .nothing) (Editor.closeBrace indenter)
  | jumpToStart count => give .travel (Editor.jumpToStart count)
  | jumpToEnd count => give .travel (Editor.jumpToEnd count)
  | outline => query fun d => .definitions d.outline
  | reindent => give .reindented (Editor.reindent indenter)

end Operation

end JadeEditor
