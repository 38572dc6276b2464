import TextEditor.Bytes.Utf8
import TextEditor.Json.Parser
import TextEditor.Json.Shape

/-!
# Reading values from JSON

How values of the usual types are read from JSON that is taken to have the right shape.  Whatever
has another shape reads as an empty value, so that reading never fails.
-/

namespace TextEditor

/-- The types whose values can be read from JSON. -/
class OfJson (α : Type) where
  ofJson : Json → α

export OfJson (ofJson)

namespace Json

variable {α β : Type} [OfJson α] [OfJson β]

/-- The value of a key, or the fallback if the object has no such key. -/
def key (j : Json) (name : String) (fallback : Json := .null) : α :=
  ofJson ((j.field? name).getD fallback)

/-- The item at a place, or the fallback if there are not as many. -/
def item (items : List Json) (index : Nat) (fallback : Json := .null) : α :=
  ofJson (items[index]?.getD fallback)

/-- Whether an object has a key. -/
def has (j : Json) (name : String) : Bool :=
  (j.field? name).isSome

/-- The items of a list. -/
def items : Json → List Json
  | .arr items => items
  | _ => []

/-- The fields of an object. -/
def fields : Json → List (Literal × Json)
  | .obj fields => fields
  | _ => []

/-- The text of a string. -/
def text : Json → String
  | .str s => s.shown
  | _ => ""

instance : OfJson Json := ⟨id⟩

instance : OfJson Int := ⟨fun j => j.whole?.getD 0⟩

instance : OfJson Nat := ⟨fun j => (j.whole?.getD 0).toNat⟩

instance : OfJson Bool := ⟨truthy⟩

instance : OfJson String := ⟨text⟩

instance : OfJson (List α) := ⟨fun j => j.items.map ofJson⟩

instance : OfJson Text := ⟨fun j => j.text.toList⟩

/-- Null stands for no value. -/
instance : OfJson (Option α) :=
  ⟨fun
    | .null => none
    | j => some (ofJson j)⟩

instance : OfJson (α × β) := ⟨fun j => (item j.items 0, item j.items 1)⟩

/-- The float that a number or one of three words stands for. -/
def toFloat : Json → Float
  | .float f => f
  | .str (.whole "nan") => 0.0 / 0.0
  | .str (.whole "inf") => 1.0 / 0.0
  | .str (.whole "-inf") => -1.0 / 0.0
  | j => nearestFloat (j.whole?.getD 0)

instance : OfJson Float := ⟨toFloat⟩

/-- The bytes that pairs of hexadecimal digits write. -/
def hexBytes : Text → Bytes
  | high :: low :: rest =>
    let value (c : Char) : Nat := (hexValue? c).getD 0
    UInt8.ofNat (16 * value high + value low) :: hexBytes rest
  | _ => []

/-- Bytes are a string that they encode, or an object that holds them in hexadecimal digits. -/
def toBytes : Json → Bytes
  | .str s => Bytes.ofString s.shown
  | j => hexBytes (j.key "hex")

instance : OfJson Bytes := ⟨toBytes⟩

end Json

end TextEditor
