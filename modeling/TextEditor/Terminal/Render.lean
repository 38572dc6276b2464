import TextEditor.Buffer.Snapshot
import TextEditor.Terminal.Styled

/-!
# Drawing a frame

A snapshot as rows of text: the number of the line, then as much of the line as fits.  Spans,
brackets, selection and caret become styles of the cells that show their characters.  A line that
the caret stands at the end of has one more cell for it.
-/

namespace TextEditor.Terminal

/-- The style of each category that has one. -/
def categoryStyle? : Category → Option String
  | .unstyled => none
  | .variableName => some "#9cdcfe"
  | .functionName | .methodName => some "#dcdcaa"
  | .className | .enumName => some "#4ec9b0"
  | .comment => some "#6a9955"
  | .keyword | .primitiveType => some "#569cd6"
  | .literal => some "#ce9178"
  | .macroName | .directive => some "#c586c0"

def gutterStyle : String := "dim"
def bracketStyle : String := "bold underline"
def selectionStyle : String := "on #264f78"
def caretStyle : String := "reverse"

/-- The offsets from `first` to before `last` are shown by the cells from `index` on. -/
structure Segment where
  first : Int
  last : Int
  index : Int
  deriving DecidableEq, Repr

/-- Give a style to the cells that show a range. -/
def stylizeRange (segments : List Segment) (start stop : Int) (style : String)
    (output : StyledText) : StyledText :=
  segments.foldl
    (fun output segment =>
      let low := max start segment.first
      let high := min stop segment.last
      if low < high then
        output.stylize style (segment.index + low - segment.first)
          (segment.index + high - segment.first)
      else output) output

/-- The characters between two offsets; a negative one counts from the end. -/
def cut (t : Text) (start stop : Int) : Text :=
  let place (offset : Int) : Nat :=
    if offset < 0 then (offset + t.length).toNat else min offset.toNat t.length
  Text.slice t (place start) (place stop)

/-- The number of a line in its margin. -/
def gutter (marginWidth number : Int) : Text :=
  Text.padLeft (marginWidth - 1).toNat (toString number).toList ++ [' ']

/-- Draw one row. -/
def drawRow (s : Snapshot) (lines : Document) (width : Int) (row : Nat) (number : Int)
    (drawn : StyledText × List Segment) : StyledText × List Segment :=
  let (output, segments) := drawn
  let caret := s.caret + s.caretTrailing
  let output := if row = 0 then output else output.append ['\n']
  let output := output.append (gutter s.marginWidth number) (some gutterStyle)
  let lineStart : Int := lines.lineStart row
  let length : Int := lines.contentLength row
  let first := lineStart + min s.columnOffset length
  let last := lineStart + min (s.columnOffset + width) length
  let index : Int := output.plain.length
  let output := output.append (cut s.text first last)
  if caret = last && last = lineStart + length then
    (output.append [' '], segments ++ [⟨first, last + 1, index⟩])
  else (output, segments ++ [⟨first, last, index⟩])

/-- Draw the rows that have a line. -/
def drawRows (s : Snapshot) (lines : Document) (width : Int) : StyledText × List Segment :=
  let rows := (s.lineNumbers.take lines.lineCount).zipIdx
  rows.foldl (fun drawn (number, row) => drawRow s lines width row number drawn) ({}, [])

/-- Draw a frame in the given number of columns. -/
def render (snapshot : Option Snapshot) (columns : Int) : StyledText :=
  match snapshot with
  | none => {}
  | some s =>
    let width := max 1 (columns - s.marginWidth)
    let caret := s.caret + s.caretTrailing
    let (output, segments) := drawRows s (Document.ofText s.text) width
    let output := s.spans.foldl
      (fun output span =>
        match categoryStyle? span.category with
        | some style => stylizeRange segments span.start span.stop style output
        | none => output) output
    let output :=
      match s.brackets with
      | none => output
      | some (opener, closer) =>
        stylizeRange segments closer (closer + 1) bracketStyle
          (stylizeRange segments opener (opener + 1) bracketStyle output)
    let output :=
      match s.selection with
      | none => output
      | some (start, length) => stylizeRange segments start (start + length) selectionStyle output
    if s.caretVisible then stylizeRange segments caret (caret + 1) caretStyle output else output

end TextEditor.Terminal
