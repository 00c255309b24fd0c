import JadeEditor.Editor.Transcript
import JadeEditor.Main
import JadeEditor.Proofs.Editor.Rollback
import JadeEditor.Proofs.Indent.Idempotent
import JadeEditor.Proofs.Buffer.Caret
import JadeEditor.Proofs.Newline.Agreement
import JadeEditor.Proofs.Newline.Ink
import JadeEditor.Proofs.Indent.Alignment
import JadeEditor.Proofs.Editor.Announcement
import JadeEditor.Proofs.Structure.Balance
import JadeEditor.Proofs.Structure.Outline
import JadeEditor.Proofs.Structure.Walk
import JadeEditor.Proofs.Structure.FunctionLayout
import JadeEditor.Proofs.Editor.Abreast
import JadeEditor.Proofs.Indent.Check
import JadeEditor.Proofs.Line.Tokens
import JadeEditor.Proofs.Line.Highlighting
import JadeEditor.Proofs.Line.Comment
import JadeEditor.Proofs.Line.Render
import JadeEditor.Proofs.Line.Priority
import JadeEditor.Proofs.Cli.Ending
import JadeEditor.Proofs.Cli.Verbosity
import JadeEditor.Proofs.Mode.Consistency
import JadeEditor.Proofs.Cli.Frame
import JadeEditor.Proofs.Buffer.OffsetOrder
import JadeEditor.Proofs.Structure.Nesting
import JadeEditor.Proofs.Structure.Repetition
import JadeEditor.Proofs.Indent.ClosingBrace
import JadeEditor.Proofs.Structure.Insertion
import JadeEditor.Proofs.Editor.Landing
import JadeEditor.Proofs.Mode.Conflict
import JadeEditor.Proofs.Indent.CurrentLine
import JadeEditor.Proofs.Cli.Width
import JadeEditor.Proofs.Line.Header
import JadeEditor.Proofs.Structure.Entries
import JadeEditor.Proofs.Structure.NextOpening
