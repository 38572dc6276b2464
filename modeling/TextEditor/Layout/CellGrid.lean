import TextEditor.Document.Basic
import TextEditor.Layout.Coordinate

/-!
# Cells

Layout on a grid where every character takes one cell: which character lies under a point, and
which rectangles show the caret and a range.  Offsets count within the text that is on screen, and
the view may be scrolled to the right by whole columns.
-/

namespace TextEditor

/-- A rectangle on the screen. -/
structure Rect (α : Type) where
  left : α
  top : α
  width : α
  height : α
  deriving Repr

/-- The character under a point; `trailing` is 1 past its middle. -/
structure Hit where
  offset : Int
  trailing : Int := 0
  deriving DecidableEq, Repr, Inhabited

/-- A grid of cells of one size. -/
structure CellGrid (α : Type) where
  cellWidth : α
  cellHeight : α

namespace CellGrid

open Coordinate

variable {α : Type} [Coordinate α]

/-- Whether both sides of a cell are long enough. -/
def valid (g : CellGrid α) : Bool :=
  !(nonpositive g.cellWidth || nonpositive g.cellHeight)

/-- The character under a point: the row and the column are those of the cell, kept within the
text, and the end of the line lies under everything to its right. -/
def hit (g : CellGrid α) (text : Text) (x y : α) (columnOffset : Int) :
    Except CoordinateFault Hit := do
  let lines := Document.ofText text
  let cellRow ← truncate (floorRatio y g.cellHeight)
  let row := min (max cellRow 0) ((lines.lineCount : Int) - 1)
  let start : Int := lines.lineStart row
  let length : Int := lines.contentLength row
  let shift ← ofInt columnOffset
  let column := add (nonnegative (ratio x g.cellWidth)) shift
  let index ← truncate column
  if length ≤ index then return ⟨start + length, 0⟩
  let whole ← ofInt index
  return ⟨start + index, if atLeastHalf (sub column whole) then 1 else 0⟩

/-- The rectangle of the caret, unless it lies outside the text or left of the view. -/
def caretRect (g : CellGrid α) (text : Text) (offset trailing columnOffset : Int) :
    Except CoordinateFault (Option (Rect α)) := do
  if offset < 0 || (text.length : Int) < offset then return none
  let lines := Document.ofText text
  let absolute := min (offset + trailing) text.length
  let row := lines.lineOf absolute
  let column := absolute - lines.lineStart row - columnOffset
  if column < 0 then return none
  let columns ← ofInt column
  let rows ← ofInt row
  return some ⟨mul columns g.cellWidth, mul rows g.cellHeight, zero, g.cellHeight⟩

/-- The columns of one row that a range covers, from the first to before the second. -/
def coveredColumns (lines : Document) (start stop columnOffset row : Int) : Int × Int :=
  let lineStart : Int := lines.lineStart row
  let first := max start lineStart - lineStart
  let last := min stop (lineStart + lines.contentLength row) - lineStart
  (max (first - columnOffset) 0, last - columnOffset)

/-- The rectangle of one row of a range, if anything of the range shows there. -/
def rowRect (g : CellGrid α) (lines : Document) (start stop columnOffset : Int) (row : Nat) :
    Except CoordinateFault (Option (Rect α)) := do
  let (first, last) := coveredColumns lines start stop columnOffset row
  if last ≤ first then return none
  let left ← ofInt first
  let top ← ofInt row
  let width ← ofInt (last - first)
  return some ⟨mul left g.cellWidth, mul top g.cellHeight, mul width g.cellWidth, g.cellHeight⟩

/-- The rectangles of a range, one for each row in which something of it shows. -/
def rangeRects (g : CellGrid α) (text : Text) (start length columnOffset : Int) :
    Except CoordinateFault (List (Rect α)) := do
  let lines := Document.ofText text
  let stop := min (start + length) text.length
  if stop ≤ start then return []
  let top := lines.lineOf start
  let rows := List.range' top (lines.lineOf stop + 1 - top)
  let rects ← rows.mapM (g.rowRect lines start stop columnOffset)
  return rects.filterMap id

end CellGrid

end TextEditor
