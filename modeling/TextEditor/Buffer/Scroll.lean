import TextEditor.Buffer.Basic

/-!
# Scrolling

Scrolling moves the view and leaves the caret where it is, on screen or not.  A negative distance
is none.
-/

namespace TextEditor.Buffer

/-- The view with its bounds brought up to date. -/
def refreshView (b : Buffer) : Buffer :=
  { b.updateBounds with dirty := true }

/-- The buffer with another line at the top of the view. -/
def scrollToLine (b : Buffer) (line : Int) : Buffer :=
  refreshView { b with viewport := { b.viewport with lineOffset := line } }

/-- The buffer with another column at the left of the view. -/
def scrollToColumn (b : Buffer) (column : Int) : Buffer :=
  refreshView { b with viewport := { b.viewport with columnOffset := column } }

def scrollUp (b : Buffer) (lines : Int := 1) : Buffer :=
  b.scrollToLine (max 0 (b.viewport.lineOffset - max 0 lines))

def scrollDown (b : Buffer) (lines : Int := 1) : Buffer :=
  b.scrollToLine (min ((b.document.lineCount : Int) - 1) (b.viewport.lineOffset + max 0 lines))

def scrollLeft (b : Buffer) (columns : Int := 1) : Buffer :=
  b.scrollToColumn (max 0 (b.viewport.columnOffset - max 0 columns))

/-- Scroll right, up to the length of the line of the caret. -/
def scrollRight (b : Buffer) (columns : Int := 1) : Buffer :=
  let limit : Int := b.document.contentLength (b.document.lineOf b.caret.absolute)
  b.scrollToColumn (max 0 (min (b.viewport.columnOffset + max 0 columns) limit))

end TextEditor.Buffer
