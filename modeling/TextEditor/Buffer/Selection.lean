import TextEditor.Buffer.Typing

/-!
# Copying and cutting

What a copy takes is the selection, or the line of the caret with its break when nothing is
selected; a cut removes the same.
-/

namespace TextEditor.Buffer

/-- The offsets of the line of the caret with its break. -/
def caretLineBounds (b : Buffer) : Int × Int :=
  let line : Int := b.document.lineOf b.caret.absolute
  (b.document.lineStart line, b.document.lineStart (line + 1))

/-- The text that a copy takes. -/
def copiedText (b : Buffer) : Text :=
  let (start, stop) := b.caret.selection?.getD b.caretLineBounds
  b.document.slice start stop

/-- Remove what a cut takes. -/
def removeCopied (b : Buffer) : Buffer :=
  let b := b.grouped "cut" fun b =>
    if b.caret.hasSelection then b.removeSelection
    else
      let (start, stop) := b.caretLineBounds
      (b.replaceRange start stop [] "cut").collapse start
  b.forgetColumn.reconcile

/-- Insert a text from the clipboard as one undo step. -/
def insertPasted (b : Buffer) (t : Text) : Buffer :=
  b.grouped "paste" fun b => b.insertText t

/-- The selection as start and length within the text on screen, clipped to it. -/
def visibleSelection? (b : Buffer) : Option (Int × Int) :=
  match b.caret.selection? with
  | none => none
  | some (first, last) =>
    let start := max first b.viewport.start
    let stop := min last b.viewport.stop
    if stop ≤ start then none else some (start - b.viewport.start, stop - start)

end TextEditor.Buffer
