/-!
# Viewport

The part of a document that is on screen: a number of rows and columns, scrolled down by whole
lines and to the right by columns, with the offsets between which the shown lines lie and the width
of the margin that holds their numbers.
-/

namespace TextEditor

/-- Size and scroll position of the view, and the offsets that it shows. -/
structure Viewport where
  rows : Int
  columns : Int
  lineOffset : Int := 0
  columnOffset : Int := 0
  start : Int := 0
  stop : Int := 0
  marginWidth : Int := 2
  deriving DecidableEq, Repr, Inhabited

namespace Viewport

/-- The line in the bottom row, whether the document has it or not. -/
def lastLine (v : Viewport) : Int :=
  v.lineOffset + v.rows - 1

def containsLine (v : Viewport) (line : Int) : Bool :=
  v.lineOffset ≤ line && line ≤ v.lastLine

def containsOffset (v : Viewport) (offset : Int) : Bool :=
  v.start ≤ offset && offset ≤ v.stop

/-- The columns that are left for text beside the margin, at least one. -/
def textWidth (v : Viewport) : Int :=
  max 1 (v.columns - v.marginWidth)

end Viewport

end TextEditor
