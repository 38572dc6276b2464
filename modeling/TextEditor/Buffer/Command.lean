import TextEditor.Bytes.Utf8
import TextEditor.Buffer.Deletion
import TextEditor.Buffer.Edit
import TextEditor.Buffer.Pointer
import TextEditor.Buffer.Selection
import TextEditor.Buffer.Snapshot

/-!
# Commands on a buffer

The operations that a user has on a buffer, and the host that two of them need: the layout of the
screen, which knows what lies under the mouse, and the clipboard.
-/

namespace TextEditor

/-- What knows the places of characters on the screen. -/
inductive Layout where
  | cells (grid : CellGrid Float)
  /-- The answers are given in advance, the last one for good. -/
  | scripted (answers : List Hit)

namespace Layout

/-- Cells of size one. -/
def standard : Layout :=
  .cells ⟨1.0, 1.0⟩

/-- The character under a point of the text on screen, and the layout for the next question. -/
def hit (layout : Layout) (text : Text) (x y : Float) (columnOffset : Int) :
    Except CoordinateFault Hit × Layout :=
  match layout with
  | .cells grid => (grid.hit text x y columnOffset, layout)
  | .scripted [] => (.ok ⟨0, 0⟩, layout)
  | .scripted [answer] => (.ok answer, layout)
  | .scripted (answer :: rest) => (.ok answer, .scripted rest)

/-- The rectangle of numbers that a scripted layout answers with. -/
def scriptedRect (a b c : Int) (text : Text) : Except CoordinateFault (Rect Float) := do
  return ⟨← floatOfInt a, ← floatOfInt b, ← floatOfInt c, ← floatOfInt text.length⟩

def caretRect (layout : Layout) (text : Text) (offset trailing columnOffset : Int) :
    Except CoordinateFault (Option (Rect Float)) :=
  match layout with
  | .cells grid => grid.caretRect text offset trailing columnOffset
  | .scripted _ => (scriptedRect offset trailing columnOffset text).map some

def rangeRects (layout : Layout) (text : Text) (start length columnOffset : Int) :
    Except CoordinateFault (List (Rect Float)) :=
  match layout with
  | .cells grid => grid.rangeRects text start length columnOffset
  | .scripted _ => (scriptedRect start length columnOffset text).map fun rect => [rect]

end Layout

/-- A clipboard, which may refuse what it is given. -/
structure Clipboard where
  content : Option Bytes := none
  accepts : Bool := true
  deriving DecidableEq, Repr, Inhabited

/-- What a buffer needs of the host. -/
structure Host where
  layout : Layout := .standard
  clipboard : Option Clipboard := none

/-- A buffer with its host. -/
structure Desk where
  buffer : Buffer
  host : Host

/-- The operations that a user has on a buffer. -/
inductive Command where
  | move (motion : Motion) (count : Int) (extending : Bool)
  /-- Move by as many lines as the view has rows. -/
  | page (motion : Motion) (extending : Bool)
  | insertText (text : Text)
  | insertTyped (text : Text)
  | insertNewline
  | deleteLeft
  | deleteRight
  | deleteWordLeft
  | deleteWordRight
  | deleteSelection
  | copy
  | cut
  | paste
  | undo
  | redo
  | click (x y : Float) (extending : Bool)
  | doubleClick (x y : Float)
  | drag (x y : Float)
  | release
  | scrollUp (lines : Int)
  | scrollDown (lines : Int)
  | scrollLeft (columns : Int)
  | scrollRight (columns : Int)
  | resize (rows columns : Int)
  | reconcile

/-- What a command answers. -/
inductive Reply where
  | done
  | flag (b : Bool)
  | text (t : Text)
  deriving DecidableEq, Repr

namespace Desk

/-- Do something to the buffer alone. -/
def onBuffer (d : Desk) (f : Buffer → Buffer) : Desk :=
  { d with buffer := f d.buffer }

/-- Ask the layout what lies under a point and go on with the answer. -/
def withHit (d : Desk) (x y : Float) (f : Hit → Buffer → Buffer) :
    Except CoordinateFault Unit × Desk :=
  let b := d.buffer
  let (answer, layout) := d.host.layout.hit b.viewText x y b.viewport.columnOffset
  let d := { d with host := { d.host with layout } }
  match answer with
  | .error fault => (.error fault, d)
  | .ok hit => (.ok (), d.onBuffer (f hit))

/-- Put a text on the clipboard; a refusal is reported. -/
def putOnClipboard (d : Desk) (t : Text) : Desk :=
  match d.host.clipboard with
  | none => d
  | some clipboard =>
    if t.isEmpty then d
    else if clipboard.accepts then
      let content := some (Utf8.encode t)
      { d with host := { d.host with clipboard := some { clipboard with content } } }
    else
      d.onBuffer fun b =>
        b.report [.event .warning "clipboard.write_rejected"
          [("buffer", b.name), ("length", toString t.length)]]

/-- Insert what is on the clipboard; bytes that are no text are reported and left there. -/
def paste (d : Desk) : Desk :=
  match d.host.clipboard.bind Clipboard.content with
  | none => d
  | some [] => d
  | some bytes =>
    d.onBuffer fun b =>
      match Utf8.decode bytes with
      | .error defect =>
        b.report [.event .warning "clipboard.decode_failed"
          [("buffer", b.name), ("reason", defect.message)]]
      | .ok t => b.insertPasted t

/-- Do one operation.  Only a point that is no place on the screen fails. -/
def perform (d : Desk) : Command → Except CoordinateFault Reply × Desk
  | .move motion count extending => (.ok .done, d.onBuffer (·.move motion count extending))
  | .page motion extending =>
    (.ok .done, d.onBuffer fun b => b.move motion (max 1 b.viewport.rows) extending)
  | .insertText text => (.ok .done, d.onBuffer (·.insertText text))
  | .insertTyped text => (.ok .done, d.onBuffer (·.insertTyped text))
  | .insertNewline => (.ok .done, d.onBuffer (·.insertNewline))
  | .deleteLeft => (.ok .done, d.onBuffer (·.deleteLeft))
  | .deleteRight => (.ok .done, d.onBuffer (·.deleteRight))
  | .deleteWordLeft => (.ok .done, d.onBuffer (·.deleteWordLeft))
  | .deleteWordRight => (.ok .done, d.onBuffer (·.deleteWordRight))
  | .deleteSelection => (.ok .done, d.onBuffer (·.deleteSelection))
  | .copy =>
    let text := d.buffer.copiedText
    (.ok (.text text), d.putOnClipboard text)
  | .cut =>
    let text := d.buffer.copiedText
    (.ok (.text text), (d.putOnClipboard text).onBuffer (·.removeCopied))
  | .paste => (.ok .done, d.paste)
  | .undo =>
    let (b, done) := d.buffer.undo
    (.ok (.flag done), { d with buffer := b })
  | .redo =>
    let (b, done) := d.buffer.redo
    (.ok (.flag done), { d with buffer := b })
  | .click x y extending =>
    let (result, d) := d.withHit x y fun hit b => b.click hit extending
    (result.map fun _ => .done, d)
  | .doubleClick x y =>
    let (result, d) := d.withHit x y fun hit b => b.selectRun hit
    (result.map fun _ => .done, d)
  | .drag x y =>
    if d.buffer.selecting then
      let (result, d) := d.withHit x y fun hit b => b.drag hit
      (result.map fun _ => .done, d)
    else (.ok .done, d)
  | .release => (.ok .done, d.onBuffer (·.release))
  | .scrollUp lines => (.ok .done, d.onBuffer (·.scrollUp lines))
  | .scrollDown lines => (.ok .done, d.onBuffer (·.scrollDown lines))
  | .scrollLeft columns => (.ok .done, d.onBuffer (·.scrollLeft columns))
  | .scrollRight columns => (.ok .done, d.onBuffer (·.scrollRight columns))
  | .resize rows columns => (.ok .done, d.onBuffer (·.resize rows columns))
  | .reconcile => (.ok .done, d.onBuffer (·.reconcile))

/-- The rectangle of the caret, if it is on screen. -/
def caretRect (d : Desk) : Except CoordinateFault (Option (Rect Float)) :=
  let b := d.buffer
  let v := b.viewport
  if v.containsOffset b.caret.absolute then
    d.host.layout.caretRect b.viewText (b.caret.position - v.start) b.caret.trailing v.columnOffset
  else .ok none

/-- The rectangles of the selection on screen. -/
def selectionRects (d : Desk) : Except CoordinateFault (List (Rect Float)) :=
  let b := d.buffer
  match b.visibleSelection? with
  | none => .ok []
  | some (start, length) =>
    d.host.layout.rangeRects b.viewText start length b.viewport.columnOffset

end Desk

end TextEditor
