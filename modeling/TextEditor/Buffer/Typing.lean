import TextEditor.Buffer.Edit
import TextEditor.Buffer.Motion
import TextEditor.Text.CharKind

/-!
# Typing

Text that is inserted at the caret takes the place of the selection.  A typed bracket brings its
partner along; a closing one steps over the same one, or takes back a level of indentation at the
start of a line.  A line break carries the indentation on, one level deeper after an opening
bracket, and opens up a pair that has only blanks inside.
-/

namespace TextEditor.Buffer

/-- Remove the selected text, if there is any, and put the caret where it was. -/
def removeSelection (b : Buffer) : Buffer :=
  match b.caret.selection? with
  | none => b
  | some (start, stop) => (b.replaceRange start stop [] "delete_selection").collapse start

/-- Insert a text at the caret, in place of the selection. -/
def insertText (b : Buffer) (t : Text) : Buffer :=
  if t.isEmpty then b
  else
    let b := b.grouped "insert_chars" fun b =>
      let b := b.removeSelection
      let offset := b.caret.absolute
      (b.replaceRange offset offset t "insert_chars").collapse (offset + t.length)
    b.forgetColumn.reconcile

/-- Take back one level of indentation before an offset, where the line has nothing but blanks
before it, no blank after it, and ends in spaces enough. -/
def dedentBefore (b : Buffer) (offset : Int) : Buffer :=
  let d := b.document
  let before := d.slice (d.lineStart (d.lineOf offset)) offset
  let unit := b.settings.indentUnit
  if !before.all Text.isBlank || !unit.isSuffixOf before then b
  else if (d.charAt? offset).any Text.isBlank then b
  else
    let start := offset - unit.length
    (b.replaceRange start offset [] "dedent").collapse start

/-- The opening bracket before an offset with nothing but blanks between, and its offset. -/
def openerBefore? (b : Buffer) (offset : Int) : Option (Int × BracketPair) :=
  let before := b.document.charsBefore offset
  let blanks := (before.takeWhile Text.isBlank).length
  match before.drop blanks with
  | [] => none
  | c :: _ =>
    (BracketPair.opened? b.settings.brackets [c]).map fun pair => (offset - blanks - 1, pair)

/-- The offset of the given bracket after an offset with nothing but blanks between. -/
def closerAfter? (b : Buffer) (offset : Int) (closing : Text) : Option Int :=
  let after := b.document.charsFrom offset
  let blanks := (after.takeWhile Text.isBlank).length
  match after.drop blanks with
  | [] => none
  | c :: _ => if [c] = closing then some (offset + blanks) else none

/-- Break the line at the caret and carry its indentation on. -/
def breakLine (b : Buffer) : Buffer :=
  let b := b.removeSelection
  let d := b.document
  let offset := b.caret.absolute
  let indent := Text.indentation (d.slice (d.lineStart (d.lineOf offset)) offset)
  let ending := b.lineEnding
  let label := "insert_newline"
  match b.openerBefore? offset with
  | none =>
    let new := ending ++ indent
    (b.replaceRange offset offset new label).collapse (offset + new.length)
  | some (opener, pair) =>
    let middle := ending ++ indent ++ b.settings.indentUnit
    match b.closerAfter? offset pair.closing with
    | none => (b.replaceRange offset offset middle label).collapse (offset + middle.length)
    | some closer =>
      let new := middle ++ ending ++ indent
      (b.replaceRange (opener + 1) closer new label).collapse (opener + 1 + middle.length)

/-- Break the line at the caret, in place of the selection. -/
def insertNewline (b : Buffer) : Buffer :=
  (b.grouped "insert_newline" breakLine).forgetColumn.reconcile

/-- Type a closing bracket that steps over nothing. -/
def insertCloser (b : Buffer) (t : Text) : Buffer :=
  let offset := b.caret.absolute
  b.grouped "insert_char" fun b => (b.dedentBefore offset).insertText t

/-- Type something that closes no bracket; an opening bracket brings its partner along. -/
def insertOpener (b : Buffer) (t : Text) : Buffer :=
  let b := b.grouped "insert_char" fun b =>
    match BracketPair.opened? b.settings.brackets t with
    | none => b.insertText t
    | some pair =>
      let b := b.insertText (pair.opening ++ pair.closing)
      b.collapse (b.caret.absolute - pair.closing.length)
  b.reconcile

/-- Type one character: a tab is one level of indentation, and brackets are completed. -/
def insertTyped (b : Buffer) (t : Text) : Buffer :=
  if t.isEmpty then b
  else if t = ['\t'] then b.insertText b.settings.indentUnit
  else if t = ['\r'] || t = ['\n'] then b.insertNewline
  else if !b.caret.hasSelection && (BracketPair.closed? b.settings.brackets t).isSome then
    if (b.document.charAt? b.caret.absolute).any fun c => [c] = t then b.move .right
    else b.insertCloser t
  else b.insertOpener t

end TextEditor.Buffer
