import TextEditor.Buffer.Motion
import TextEditor.Buffer.Scroll
import TextEditor.Layout.CellGrid

/-!
# Mouse

Clicks, drags and double clicks.  The layout of the screen says which character of the text on
screen was hit and on which side of its middle; these operations take that answer.
-/

namespace TextEditor.Buffer

/-- The offset and the trailing edge in the document for a hit in the text on screen.  Past the end
there is no trailing edge, and the middle of a CR LF pair is the place before it. -/
def placeOfHit (b : Buffer) (hit : Hit) : Int × Int :=
  let d := b.document
  let offset : Int := d.clamp (b.viewport.start + hit.offset)
  let trailing := if offset < d.length then hit.trailing else 0
  let settled := d.settle (offset + trailing)
  if settled ≠ offset + trailing then (settled, 0) else (offset, trailing)

/-- Put the caret where the button went down; extending keeps the anchor.  A click on the bottom
row scrolls on if there are more lines. -/
def click (b : Buffer) (hit : Hit) (extending : Bool := false) : Buffer :=
  let (offset, trailing) := b.placeOfHit hit
  let b := { (b.place offset trailing extending).forgetColumn with selecting := true }
  let line : Int := b.document.lineOf b.caret.absolute
  let b :=
    if line = b.viewport.lastLine && line < (b.document.lineCount : Int) - 1 then b.scrollDown
    else b
  b.reconcile

/-- Let the button go. -/
def release (b : Buffer) : Buffer :=
  { b with selecting := false }

/-- Extend the selection to where the mouse went while the button was down. -/
def drag (b : Buffer) (hit : Hit) : Buffer :=
  if b.selecting then
    let (offset, trailing) := b.placeOfHit hit
    (b.place offset trailing true).reconcile
  else b

/-- Select the run of one kind of characters that was hit. -/
def selectRun (b : Buffer) (hit : Hit) : Buffer :=
  let d := b.document
  let (offset, _) := b.placeOfHit hit
  let b :=
    match d.charAt? offset with
    | none => b.collapse offset
    | some c =>
      let start := offset - CharKind.runLength (.ofChar c) (d.charsBefore offset)
      let stop := offset + CharKind.leadingRun (d.charsFrom offset)
      { b with caret := { b.caret with anchor := start }.place stop 0 true }
  { b.forgetColumn with selecting := false }.reconcile

end TextEditor.Buffer
