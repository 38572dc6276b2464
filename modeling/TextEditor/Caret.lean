/-!
# Caret and selection

The caret stands before a character, or after it when it was put on its trailing edge.  The
selection reaches from the anchor to the caret.  The desired column is the one that vertical motion
returns to when a line is long enough.
-/

namespace TextEditor

/-- Anchor, caret and sticky column. -/
structure Caret where
  anchor : Int := 0
  position : Int := 0
  trailing : Int := 0
  desiredColumn : Int := 0
  deriving DecidableEq, Repr, Inhabited

namespace Caret

/-- The offset at which typing would insert. -/
def absolute (c : Caret) : Int :=
  c.position + c.trailing

/-- Whether anchor and caret differ. -/
def hasSelection (c : Caret) : Bool :=
  c.anchor ≠ c.absolute

/-- The offsets between which the selection lies, the smaller first. -/
def selection? (c : Caret) : Option (Int × Int) :=
  if c.hasSelection then some (min c.anchor c.absolute, max c.anchor c.absolute) else none

/-- Put the caret at an edge of a character; the anchor stays where it is if `extending`. -/
def place (c : Caret) (offset : Int) (trailing : Int := 0) (extending : Bool := false) : Caret :=
  { c with
    position := offset
    trailing := trailing
    anchor := if extending then c.anchor else offset + trailing }

/-- Put caret and anchor at one offset. -/
def collapse (c : Caret) (offset : Int) : Caret :=
  { c with position := offset, trailing := 0, anchor := offset }

theorem absolute_collapse (c : Caret) (offset : Int) : (c.collapse offset).absolute = offset := by
  simp [collapse, absolute]

theorem hasSelection_collapse (c : Caret) (offset : Int) :
    (c.collapse offset).hasSelection = false := by
  simp [hasSelection, collapse, absolute]

end Caret

end TextEditor
