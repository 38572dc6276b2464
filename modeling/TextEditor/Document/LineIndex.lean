import TextEditor.Text.CharKind

/-!
# Lines of a text

A line ends at a line break, which is a CR LF pair or one line-break character, and belongs to its
line.  A text has one line more than it has breaks, so a break at the end opens an empty last line.
`lineStarts` lists the offset at which each line begins.
-/

namespace TextEditor.Text

/-- The offsets just after each line break of `t`, where `t` itself begins at `offset`. -/
def breakEnds : (offset : Nat) → Text → List Nat
  | _, [] => []
  | offset, '\r' :: '\n' :: rest => (offset + 2) :: breakEnds (offset + 2) rest
  | offset, c :: rest =>
    if isLineBreak c then (offset + 1) :: breakEnds (offset + 1) rest
    else breakEnds (offset + 1) rest

/-- The offset at which each line begins. -/
def lineStarts (t : Text) : List Nat :=
  0 :: breakEnds 0 t

/-- The first line break of a text. -/
def firstBreak? : Text → Option Text
  | [] => none
  | '\r' :: '\n' :: _ => some ['\r', '\n']
  | c :: rest => if isLineBreak c then some [c] else firstBreak? rest

theorem lineStarts_nil : lineStarts [] = [0] := rfl

theorem lineStarts_ne_nil (t : Text) : lineStarts t ≠ [] := by
  simp [lineStarts]

end TextEditor.Text
