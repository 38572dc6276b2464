import TextEditor.Bytes.Utf8
import TextEditor.Json.Basic

/-!
# Writing values as JSON

The JSON form of values of the usual types.  A float is written as the digits of its bits, so that
nothing of it is lost.
-/

namespace TextEditor

/-- The types whose values have a JSON form. -/
class ToJson (α : Type) where
  json : α → Json

export ToJson (json)

namespace Json

variable {α β : Type} [ToJson α] [ToJson β]

instance : ToJson Json := ⟨id⟩

instance : ToJson Int := ⟨.int⟩

instance : ToJson Nat := ⟨.nat⟩

instance : ToJson Bool := ⟨.bool⟩

instance : ToJson String := ⟨fun s => .str s⟩

instance : ToJson (List α) := ⟨fun items => .arr (items.map json)⟩

instance : ToJson Text := ⟨fun t => .str (String.ofList t)⟩

instance : ToJson (Option α) := ⟨fun value => value.elim .null json⟩

instance : ToJson (α × β) := ⟨fun (a, b) => .arr [json a, json b]⟩

instance : ToJson Float := ⟨fun f => json (Text.Quoted.hexDigits 16 f.toBits.toNat)⟩

/-- The digits of bytes in hexadecimal. -/
def hexText (bytes : Bytes) : Text :=
  bytes.flatMap fun b => Text.Quoted.hexDigits 2 b.toNat

/-- Bytes are the string that they encode, or an object that holds them in hexadecimal digits. -/
def ofBytes (bytes : Bytes) : Json :=
  match Utf8.decode bytes with
  | .ok t => json t
  | .error _ => .obj [("hex", json (hexText bytes))]

instance : ToJson Bytes := ⟨ofBytes⟩

end Json

end TextEditor
