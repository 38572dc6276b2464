import TextEditor.Highlight.Brackets
import TextEditor.Highlight.Scanner

/-!
# Lexical highlights

Spans and enclosing brackets of the text on screen, from that text and the characters before it
alone.
-/

namespace TextEditor

/-- The spans of the text on screen, and the brackets around the caret. -/
structure Highlights where
  spans : List Span := []
  brackets : Option (Nat × Nat) := none
  deriving DecidableEq, Repr, Inhabited

namespace Highlight

/-- Classify the text on screen.  `preceding` holds the characters before it, nearest first, and
`caret` is relative to it.  When a comment from before the view does not end in it, all of it is
comment and there are no brackets. -/
def lexical (p : Profile) (pairs : List BracketPair) (preceding text : Text) (caret : Int) :
    Highlights :=
  let (spans, unclosed) :=
    if startsInsideComment preceding p.blockComment then scanInside p text
    else (scan p text, false)
  if unclosed then ⟨spanOf 0 text.length .comment, none⟩
  else ⟨spans, enclosingBrackets? text caret spans pairs⟩

end Highlight

end TextEditor
