import TextEditor.Buffer.Typing

/-!
# Deletion

What the deletion keys remove: the selection if there is one, otherwise one character, one level of
indentation, one CR LF pair, or one word beside the caret.
-/

namespace TextEditor.Buffer

/-- Remove the selected text. -/
def deleteSelection (b : Buffer) : Buffer :=
  b.removeSelection.forgetColumn.reconcile

/-- How many characters one deletion removes where `beside` gives the text beside the caret of a
width. -/
def deletionWidth (b : Buffer) (beside : Nat → Text) : Nat :=
  let unit := b.settings.indentUnit
  if beside 2 = ['\r', '\n'] then 2
  else if beside unit.length = unit then unit.length
  else 1

/-- Delete before the caret, or the selection. -/
def deleteLeft (b : Buffer) : Buffer :=
  if b.caret.hasSelection then b.deleteSelection
  else
    let offset := b.caret.absolute
    let b :=
      if 0 < offset then
        let width := b.deletionWidth fun n => b.document.slice (offset - n) offset
        let start := offset - min (width : Int) offset
        (b.replaceRange start offset [] "delete_left").collapse start
      else b
    b.forgetColumn.reconcile

/-- Delete after the caret, or the selection. -/
def deleteRight (b : Buffer) : Buffer :=
  if b.caret.hasSelection then b.deleteSelection
  else
    let offset := b.caret.absolute
    let b :=
      if offset < b.document.length then
        let width := b.deletionWidth fun n => b.document.slice offset (offset + n)
        (b.replaceRange offset (offset + width) [] "delete_right").collapse offset
      else b
    b.forgetColumn.reconcile

/-- Delete from the caret to where a motion by words leads. -/
def deleteWord (b : Buffer) (motion : Motion) (label : String) : Buffer :=
  b.grouped label fun b => (b.move motion 1 true).deleteSelection

/-- Delete the word before the caret. -/
def deleteWordLeft (b : Buffer) : Buffer :=
  b.deleteWord .leftWord "delete_left_by_word"

/-- Delete the word after the caret. -/
def deleteWordRight (b : Buffer) : Buffer :=
  b.deleteWord .rightWord "delete_right_by_word"

end TextEditor.Buffer
