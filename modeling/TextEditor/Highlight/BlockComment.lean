import TextEditor.Text.Basic

/-!
# Block comments ahead of the view

Whether the view opens inside a block comment is found by walking backward from its first
character: whichever end of a comment turns up first decides.  Both ends are followed at once, one
character at a time.
-/

namespace TextEditor.Highlight

/-- How much of `token` is matched after one more character.  A mismatch may still begin the token
afresh. -/
def advance (token : Text) (matched : Nat) (c : Char) : Nat :=
  if token[matched]? = some c then matched + 1
  else if token.head? = some c then 1
  else 0

/-- Whether the opener is completed before the closer, along characters that come nearest first.
Both tokens are given backward. -/
def opensFirst (opener closer : Text) : (opened closed : Nat) → Text → Bool
  | _, _, [] => false
  | opened, closed, c :: rest =>
    let opened := advance opener opened c
    if opened = opener.length then true
    else
      let closed := advance closer closed c
      if closed = closer.length then false
      else opensFirst opener closer opened closed rest

/-- Whether the nearest end of a block comment behind the view is an opening one.  `preceding`
holds the characters before the view, nearest first. -/
def startsInsideComment (preceding : Text) : Option (Text × Text) → Bool
  | none => false
  | some (opener, closer) => opensFirst opener.reverse closer.reverse 0 0 preceding

end TextEditor.Highlight
