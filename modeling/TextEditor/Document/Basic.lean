import TextEditor.Document.LineIndex

/-!
# Documents

A document is a text with the index of its line starts, which edits keep up to date without
reading the whole text again, and a version that counts the edits.  Offsets and lines given from
outside are integers and saturate at the bounds of the document.
-/

namespace TextEditor

/-- A text, the offsets at which its lines begin, and the number of edits made to it. -/
structure Document where
  text : Text
  starts : List Nat
  version : Nat
  deriving DecidableEq, Repr

namespace Document

/-- A document whose lines are found by reading all of the text. -/
def ofText (t : Text) : Document :=
  ⟨t, Text.lineStarts t, 0⟩

/-- The number of characters. -/
def length (d : Document) : Nat :=
  d.text.length

/-- The number of lines, at least one. -/
def lineCount (d : Document) : Nat :=
  d.starts.length

/-- The offset within the document that is nearest to the given one. -/
def clamp (d : Document) (offset : Int) : Nat :=
  min offset.toNat d.length

/-- The character at an offset, if there is one. -/
def charAt? (d : Document) (offset : Int) : Option Char :=
  if offset < 0 then none else d.text[offset.toNat]?

/-- The characters between two offsets, in whichever order they are given. -/
def slice (d : Document) (start stop : Int) : Text :=
  let a := d.clamp start
  let b := d.clamp stop
  Text.slice d.text (min a b) (max a b)

/-- The offset of the first character of a line; a line past the end begins at the end. -/
def lineStart (d : Document) (line : Int) : Nat :=
  if line ≤ 0 then 0 else d.starts[line.toNat]?.getD d.length

/-- The line that an offset lies on. -/
def lineOf (d : Document) (offset : Int) : Nat :=
  let place := d.clamp offset
  (d.starts.takeWhile (· ≤ place)).length - 1

/-- The text of a line with its line break. -/
def line (d : Document) (index : Int) : Text :=
  Text.slice d.text (d.lineStart index) (d.lineStart (index + 1))

/-- The number of characters of the break that ends a line: two for CR LF, none on the last. -/
def breakWidth (d : Document) (index : Int) : Nat :=
  if index < 0 then 0
  else
    match d.starts[index.toNat + 1]? with
    | none => 0
    | some stop =>
      if 2 ≤ stop && Text.slice d.text (stop - 2) stop = ['\r', '\n'] then 2 else 1

/-- The number of characters of a line without its break; none outside the document. -/
def contentLength (d : Document) (index : Int) : Nat :=
  if index < 0 || (d.lineCount : Int) ≤ index then 0
  else d.lineStart (index + 1) - d.lineStart index - d.breakWidth index

/-- The characters from an offset on. -/
def charsFrom (d : Document) (offset : Int) : Text :=
  d.text.drop (d.clamp offset)

/-- The characters before an offset, nearest first. -/
def charsBefore (d : Document) (offset : Int) : Text :=
  (d.text.take (d.clamp offset)).reverse

/-- The line break that the document uses first. -/
def lineEnding? (d : Document) : Option Text :=
  Text.firstBreak? d.text

/-- The document with `new` in place of the characters from `start` to `stop - 1`.  A break beside
the edit can join with it or come apart, so the index is found again from the line before the
edit on; what it says of earlier lines is kept. -/
def replace (d : Document) (start stop : Nat) (new : Text) : Document :=
  let text := d.text.take start ++ new ++ d.text.drop stop
  let line := d.lineOf start - 1
  let resume := d.starts[line]?.getD 0
  { text
    starts := d.starts.take (line + 1) ++ Text.breakEnds resume (text.drop resume)
    version := d.version + 1 }

/-- The document with a text inserted at an offset; an empty text is no edit. -/
def insert (d : Document) (offset : Int) (new : Text) : Document :=
  if new.isEmpty then d else d.replace (d.clamp offset) (d.clamp offset) new

/-- The document without the characters between two offsets; an empty range is no edit. -/
def remove (d : Document) (start stop : Int) : Document :=
  let a := min (d.clamp start) (d.clamp stop)
  let b := max (d.clamp start) (d.clamp stop)
  if a = b then d else d.replace a b []

/-- The line and the column of an offset, which need not lie within the document. -/
def positionOf (d : Document) (offset : Int) : Nat × Int :=
  let line := d.lineOf offset
  (line, offset - d.lineStart line)

@[simp]
theorem length_ofText (t : Text) : (ofText t).length = t.length := rfl

theorem clamp_le_length (d : Document) (offset : Int) : d.clamp offset ≤ d.length := by
  simp only [clamp]
  omega

theorem clamp_of_le {d : Document} {offset : Nat} (h : offset ≤ d.length) :
    d.clamp offset = offset := by
  simp only [clamp]
  omega

theorem insert_nil (d : Document) (offset : Int) : d.insert offset [] = d := rfl

end Document

end TextEditor
