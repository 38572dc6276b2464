import TextEditor.Highlight.Span

/-!
# Enclosing brackets

The innermost pair of brackets of one kind around the caret.  Brackets inside comments and strings
do not count.  Going backward from the caret, a closing bracket is set off against the next opening
one of its kind; the first opening bracket that is left over is the one, and going forward from it
its partner is found by the nesting of its kind alone.
-/

namespace TextEditor.Highlight

/-- The characters of a text with their offsets, less those that a comment or a string covers. -/
def visibleChars (t : Text) (spans : List Span) : List (Nat × Char) :=
  let concealing := spans.filter Span.hidesBrackets
  (t.zipIdx.map fun (c, offset) => (offset, c)).filter fun (offset, _) =>
    !concealing.any fun span => span.covers offset

/-- How many closing brackets of each kind wait for their opening one. -/
abbrev Waiting := List (Text × Nat)

def Waiting.count (w : Waiting) (closing : Text) : Nat :=
  (w.lookup closing).getD 0

def Waiting.set (w : Waiting) (closing : Text) (count : Nat) : Waiting :=
  (closing, count) :: w.filter fun entry => entry.1 ≠ closing

/-- The nearest opening bracket that no closing one answers, along characters that come nearest
first. -/
def unclosedOpener? (pairs : List BracketPair) (waiting : Waiting) :
    List (Nat × Char) → Option (Nat × BracketPair)
  | [] => none
  | (offset, c) :: rest =>
    match BracketPair.opened? pairs [c] with
    | some pair =>
      match waiting.count pair.closing with
      | 0 => some (offset, pair)
      | n + 1 => unclosedOpener? pairs (waiting.set pair.closing n) rest
    | none =>
      match BracketPair.closed? pairs [c] with
      | some pair =>
        unclosedOpener? pairs (waiting.set pair.closing (waiting.count pair.closing + 1)) rest
      | none => unclosedOpener? pairs waiting rest

/-- The offset of the bracket that closes the pair, where `depth` pairs of its kind opened since
are still to be closed first. -/
def closerOf? (pair : BracketPair) : (depth : Nat) → List (Nat × Char) → Option Nat
  | _, [] => none
  | depth, (offset, c) :: rest =>
    if [c] = pair.closing then
      match depth with
      | 0 => some offset
      | depth + 1 => closerOf? pair depth rest
    else if [c] = pair.opening then closerOf? pair (depth + 1) rest
    else closerOf? pair depth rest

/-- The offsets of the innermost brackets of one kind around the caret. -/
def enclosingBrackets? (t : Text) (caret : Int) (spans : List Span) (pairs : List BracketPair) :
    Option (Nat × Nat) :=
  if caret < 0 || (t.length : Int) < caret then none
  else
    let chars := visibleChars t spans
    let before := chars.filter fun (offset, _) => offset < caret.toNat
    match unclosedOpener? pairs [] before.reverse with
    | none => none
    | some (opener, pair) =>
      (closerOf? pair 0 (chars.filter fun (offset, _) => opener < offset)).map fun closer =>
        (opener, closer)

end TextEditor.Highlight
