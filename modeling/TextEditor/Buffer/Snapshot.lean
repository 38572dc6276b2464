import TextEditor.Buffer.Selection
import TextEditor.Highlight.Lexical

/-!
# Snapshots

A snapshot is what it takes to draw one frame of a buffer, apart from the buffer.  Its offsets
count within the text on screen.
-/

namespace TextEditor

/-- One frame of a buffer. -/
structure Snapshot where
  text : Text
  viewStart : Int
  lineOffset : Int
  columnOffset : Int
  lineNumbers : List Int
  marginWidth : Int
  caret : Int
  caretTrailing : Int
  /-- Start and length of the selection. -/
  selection : Option (Int × Int)
  spans : List Span := []
  brackets : Option (Int × Int) := none
  caretVisible : Bool := true
  deriving DecidableEq, Repr

namespace Buffer

/-- Spans and brackets of the text on screen. -/
def highlights (b : Buffer) : Highlights :=
  Highlight.lexical b.profile b.settings.brackets (b.document.charsBefore b.viewport.start)
    b.viewText (b.caret.absolute - b.viewport.start)

/-- The activity under which highlighting is reported. -/
def highlightActivity (language : String) (length : Nat) : Activity :=
  { name := "highlight::lexical"
    component := some "highlighter"
    metadata := [("language", language), ("view_length", toString length)] }

/-- The buffer after its text on screen was highlighted, which is reported. -/
def reportHighlight (b : Buffer) : Buffer :=
  b.report (Journal.brief (highlightActivity b.language b.viewText.length))

/-- The frame to draw. -/
def snapshot (b : Buffer) : Snapshot :=
  let v := b.viewport
  let highlights := b.highlights
  let last := min (v.lineOffset + v.rows) b.document.lineCount
  { text := b.viewText
    viewStart := v.start
    lineOffset := v.lineOffset
    columnOffset := v.columnOffset
    lineNumbers :=
      (List.range (last - v.lineOffset).toNat).map fun (row : Nat) => v.lineOffset + 1 + row
    marginWidth := v.marginWidth
    caret := b.caret.position - v.start
    caretTrailing := b.caret.trailing
    selection := b.visibleSelection?
    spans := highlights.spans
    brackets := highlights.brackets.map fun (opener, closer) => ((opener : Int), (closer : Int)) }

end Buffer

end TextEditor
