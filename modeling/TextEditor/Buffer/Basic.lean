import TextEditor.Caret
import TextEditor.History.Delta
import TextEditor.History.Timeline
import TextEditor.Journal
import TextEditor.Language.Profile
import TextEditor.Settings
import TextEditor.Viewport

/-!
# Text buffers

A buffer is one open document with its caret, selection and view, the history of its edits, and
the changes that a language server has not heard of yet.  Offsets saturate at the bounds of the
document, so that no operation on a buffer fails.  `reconcile` brings caret and view back in line
with the document and is the last step of every operation that changes something.
-/

namespace TextEditor

/-- The edits of an operation that is going on, which become one undo step, and the caret before
it. -/
structure Grouping where
  label : String
  edits : List Edit
  caretBefore : Int
  anchorBefore : Int
  deriving DecidableEq, Repr

/-- One open document with its caret, view and history. -/
structure Buffer where
  path : String
  settings : Settings
  profile : Profile
  document : Document
  viewport : Viewport
  caret : Caret := {}
  timeline : Timeline := {}
  /-- Whether something changed since the buffer was last drawn. -/
  dirty : Bool := true
  /-- Whether the mouse button is down and motion extends the selection. -/
  selecting : Bool := false
  /-- Whether a language server follows the buffer. -/
  tracking : Bool := false
  /-- The changes since the server was last told, in order. -/
  changes : List Delta := []
  /-- The outermost operation that is going on. -/
  grouping : Option Grouping := none
  /-- What was reported and not collected yet. -/
  journal : Journal := []

namespace Buffer

/-- The last part of the path, by which the buffer is shown. -/
def name (b : Buffer) : String :=
  match Profile.fileName b.path.toList with
  | [] => b.path
  | file => String.ofList file

/-- The identifier of the language. -/
def language (b : Buffer) : String :=
  b.profile.identifier

def text (b : Buffer) : Text :=
  b.document.text

/-- The line break that the document uses, or the one for new documents. -/
def lineEnding (b : Buffer) : Text :=
  b.document.lineEnding?.getD b.settings.lineEnding

/-- The text on screen. -/
def viewText (b : Buffer) : Text :=
  b.document.slice b.viewport.start b.viewport.stop

/-- Add reports. -/
def report (b : Buffer) (entries : Journal) : Buffer :=
  { b with journal := b.journal ++ entries }

/-- The view with its line offset within the document, and the offsets and the margin that follow
from it. -/
def updateBounds (b : Buffer) : Buffer :=
  let d := b.document
  let v := b.viewport
  let lineOffset := max 0 (min v.lineOffset ((d.lineCount : Int) - 1))
  let last := min (lineOffset + v.rows) d.lineCount
  { b with
    viewport :=
      { v with
        lineOffset
        start := d.lineStart lineOffset
        stop := d.lineStart last
        marginWidth := ((toString last).length : Int) + 1 } }

/-- The view scrolled as little as it takes for the caret to be on screen. -/
def followCaret (b : Buffer) : Buffer :=
  let d := b.document
  let v := b.viewport
  let offset := b.caret.absolute
  let line : Int := d.lineOf offset
  let lineOffset :=
    if line < v.lineOffset then line
    else if v.lastLine < line then line - v.rows + 1
    else v.lineOffset
  let column := offset - d.lineStart line
  let columnOffset :=
    if column < v.columnOffset then column
    else if v.columnOffset + v.textWidth ≤ column then column - v.textWidth + 1
    else v.columnOffset
  { b with viewport := { v with lineOffset, columnOffset } }

/-- The caret within the document; the trailing edge of nothing is given up. -/
def clampCaret (b : Buffer) : Buffer :=
  let anchor : Int := b.document.clamp b.caret.anchor
  let position : Int := b.document.clamp b.caret.position
  let reaches := position + b.caret.trailing ≤ b.document.length
  let trailing := if reaches then b.caret.trailing else 0
  { b with caret := { b.caret with anchor, position, trailing } }

/-- Caret within the document, view around the caret, margin and bounds to match. -/
def reconcile (b : Buffer) : Buffer :=
  { b.clampCaret.updateBounds.followCaret.updateBounds with dirty := true }

/-- A buffer for a document with the given text and size of the view. -/
def create (path : String) (text : Text) (rows columns : Int) (settings : Settings) : Buffer :=
  reconcile
    { path
      settings
      profile := Profile.ofPath path
      document := Document.ofText text
      viewport := { rows := max 1 rows, columns := max 1 columns } }

/-- The buffer with the given size of the view. -/
def resize (b : Buffer) (rows columns : Int) : Buffer :=
  reconcile { b with viewport := { b.viewport with rows := max 1 rows, columns := max 1 columns } }

/-- Put the caret on one offset without a selection. -/
def collapse (b : Buffer) (offset : Int) : Buffer :=
  { b with caret := b.caret.collapse offset }

/-- Forget the column that vertical motion would return to. -/
def forgetColumn (b : Buffer) : Buffer :=
  { b with caret := { b.caret with desiredColumn := 0 } }

/-- The changes since the server was last told, and the buffer without them. -/
def drainChanges (b : Buffer) : List Delta × Buffer :=
  (b.changes, { b with changes := [] })

/-- Let a server follow the buffer from its present text on. -/
def track (b : Buffer) : Buffer :=
  { b with tracking := true, changes := [] }

/-- Let no server follow the buffer. -/
def untrack (b : Buffer) : Buffer :=
  { b with tracking := false, changes := [] }

end Buffer

end TextEditor
