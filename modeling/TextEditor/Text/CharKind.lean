import TextEditor.Text.Alphanumeric
import TextEditor.Text.Whitespace

/-!
# Kinds of characters

Word motion divides the characters into three kinds: word characters, line breaks and everything
else.  A run is a maximal stretch of one kind.
-/

namespace TextEditor

/-- The classes that a scan for word boundaries tells apart. -/
inductive CharKind where
  | word
  | punctuation
  | lineBreak
  deriving DecidableEq, Repr

namespace Text

/-- Letters, numbers and the underscore, so that a snake case name moves as one unit. -/
def isWord (c : Char) : Bool :=
  isAlphanumeric c || c = '_'

/-- The characters that end a line, alone or as part of a CR LF pair. -/
def lineBreaks : List Char :=
  ['\n', '\r', '\x0b', '\x0c', '\u0085', '\u2028', '\u2029']

def isLineBreak (c : Char) : Bool :=
  lineBreaks.contains c

end Text

namespace CharKind

def ofChar (c : Char) : CharKind :=
  if Text.isWord c then .word
  else if Text.isLineBreak c then .lineBreak
  else .punctuation

/-- The kind at a place that may lie outside the text, where it counts as punctuation. -/
def ofChar? : Option Char → CharKind
  | some c => ofChar c
  | none => .punctuation

/-- The word by which each kind is known. -/
def name : CharKind → String
  | .word => "word"
  | .punctuation => "punctuation"
  | .lineBreak => "linebreak"

/-- How many characters at the front of `t` are of this kind. -/
def runLength (kind : CharKind) (t : Text) : Nat :=
  (t.takeWhile fun c => ofChar c = kind).length

/-- How many characters at the front share the kind of the first one. -/
def leadingRun : Text → Nat
  | [] => 0
  | c :: rest => runLength (ofChar c) (c :: rest)

theorem leadingRun_pos {t : Text} (h : t ≠ []) : 0 < leadingRun t := by
  cases t with
  | nil => exact absurd rfl h
  | cons c rest => simp [leadingRun, runLength]

theorem leadingRun_le_length (t : Text) : leadingRun t ≤ t.length := by
  cases t with
  | nil => simp [leadingRun]
  | cons c rest => exact (List.takeWhile_sublist _).length_le

end CharKind

namespace Text

/-- The spaces and tabs that begin a line. -/
def indentation (line : Text) : Text :=
  line.takeWhile isBlank

end Text

end TextEditor
