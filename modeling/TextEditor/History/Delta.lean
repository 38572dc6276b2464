import TextEditor.Document.Basic
import TextEditor.Text.Units

/-!
# Deltas

A delta reports one replacement to whoever follows the document, such as a language server.  Its
range is given by lines and columns of the text before it, in characters and in UTF-16 units.
-/

namespace TextEditor

/-- A line and a column, both counted from zero. -/
structure Position where
  line : Int
  column : Int
  deriving DecidableEq, Repr, Inhabited

/-- How the columns of positions are counted. -/
inductive Encoding where
  /-- By characters. -/
  | utf32
  /-- By UTF-16 code units. -/
  | utf16
  deriving DecidableEq, Repr, Inhabited

namespace Encoding

def name : Encoding → String
  | .utf32 => "utf-32"
  | .utf16 => "utf-16"

/-- The encoding of that name. -/
def ofName? (s : String) : Option Encoding :=
  if s = "utf-32" then some .utf32 else if s = "utf-16" then some .utf16 else none

theorem ofName?_name (e : Encoding) : ofName? e.name = some e := by
  cases e <;> decide

end Encoding

/-- The range between `start` and `stop` was replaced by `text`. -/
structure Delta where
  start : Position
  stop : Position
  start16 : Position
  stop16 : Position
  text : Text
  version : Nat
  label : String
  deriving DecidableEq, Repr

namespace Delta

/-- The ends of the range with columns counted as asked. -/
def range (d : Delta) : Encoding → Position × Position
  | .utf32 => (d.start, d.stop)
  | .utf16 => (d.start16, d.stop16)

end Delta

namespace Document

/-- The position of an offset with its column in characters. -/
def position (d : Document) (offset : Int) : Position :=
  let (line, column) := d.positionOf offset
  ⟨line, column⟩

/-- The position of an offset with its column in UTF-16 units. -/
def position16 (d : Document) (offset : Int) : Position :=
  let (line, column) := d.positionOf offset
  ⟨line, Text.units (d.slice (offset - column) offset)⟩

end Document

end TextEditor
