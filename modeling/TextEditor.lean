import TextEditor.Exchange.Choices
import TextEditor.Exchange.Edits
import TextEditor.Exchange.Frame
import TextEditor.Exchange.Reports
import TextEditor.Main
import TextEditor.Proofs.Buffer.Abandon
import TextEditor.Proofs.Buffer.BalancedTyping
import TextEditor.Proofs.Buffer.Calls
import TextEditor.Proofs.Buffer.Clipboard
import TextEditor.Proofs.Buffer.LineBreaks
import TextEditor.Proofs.Buffer.Recall
import TextEditor.Proofs.Buffer.Receiver
import TextEditor.Proofs.Buffer.Rows
import TextEditor.Proofs.Buffer.StickyColumn
import TextEditor.Proofs.Buffer.Words
import TextEditor.Proofs.Highlight.Columns
import TextEditor.Proofs.Highlight.Enclosing
import TextEditor.Proofs.Highlight.Nearest
import TextEditor.Proofs.Highlight.Relative
import TextEditor.Proofs.Highlight.Strings
import TextEditor.Proofs.Highlight.Views
import TextEditor.Proofs.Highlight.Words
import TextEditor.Proofs.Json.RoundTrip
import TextEditor.Proofs.Keymap.Stroke
import TextEditor.Proofs.Layout.Rectangles
import TextEditor.Proofs.Server.Custody
import TextEditor.Proofs.Server.Draining
import TextEditor.Proofs.Server.Legacies
import TextEditor.Proofs.Server.Losses
import TextEditor.Proofs.Server.Numbering
import TextEditor.Proofs.Server.Origins
import TextEditor.Proofs.Server.Pieces
import TextEditor.Proofs.Server.Reader
import TextEditor.Proofs.Server.Readers
import TextEditor.Proofs.Server.Staleness
import TextEditor.Proofs.Server.Tracking
import TextEditor.Proofs.Terminal.Styling
import TextEditor.Proofs.Text.Surrogates
import TextEditor.Proofs.Workspace.Focus
