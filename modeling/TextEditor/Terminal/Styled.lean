import TextEditor.Text.Basic

/-!
# Styled text

A text whose parts have styles.  Control characters that move the cursor of a terminal are left out
of what is appended, and a style is kept within the text.
-/

namespace TextEditor

/-- A style for a part of a text. -/
structure StyleSpan where
  start : Int
  stop : Int
  style : String
  deriving DecidableEq, Repr

/-- A text and the styles of its parts, in the order in which they were given. -/
structure StyledText where
  plain : Text := []
  spans : List StyleSpan := []
  deriving DecidableEq, Repr, Inhabited

namespace StyledText

/-- The characters that are never shown: bell, backspace, vertical tab, form feed and carriage
return. -/
def isDropped (c : Char) : Bool :=
  [7, 8, 11, 12, 13].contains c.toNat

/-- Append a text, which may have a style. -/
def append (s : StyledText) (t : Text) (style : Option String := none) : StyledText :=
  if t.isEmpty then s
  else
    let plain := s.plain ++ t.filter fun c => !isDropped c
    let added := style.toList.map fun style => ⟨s.plain.length, plain.length, style⟩
    ⟨plain, s.spans ++ added⟩

/-- Give a style to a part.  A negative offset counts from the end, and what lies behind the end is
cut off. -/
def stylize (s : StyledText) (style : String) (start stop : Int) : StyledText :=
  let length : Int := s.plain.length
  let start := if start < 0 then start + length else start
  let stop := if stop < 0 then stop + length else stop
  if length = 0 || length ≤ start || stop ≤ start then s
  else { s with spans := s.spans ++ [⟨start, min length stop, style⟩] }

end StyledText

end TextEditor
