import TextEditor.Decimal.FloatText
import TextEditor.Json.Literal
import TextEditor.Table

/-!
# JSON values

The values that editor and language servers exchange.  Whole numbers are exact and apart from
floats; an object keeps its keys in the order in which they first came, each once.
-/

namespace TextEditor

/-- A JSON value. -/
inductive Json where
  | null
  | bool (b : Bool)
  | int (n : Int)
  | float (f : Float)
  | str (s : Json.Literal)
  | arr (items : List Json)
  | obj (fields : List (Json.Literal × Json))
  deriving Inhabited

namespace Json

/-- An object from fields in order, where a repeated key takes its last value. -/
def ofFields (fields : List (Literal × Json)) : Json :=
  .obj (Table.putAll [] fields)

/-- The value of a key of an object. -/
def field? (key : String) : Json → Option Json
  | .obj fields => fields.lookup (.whole key)
  | _ => none

/-- Whether the value counts as true: everything does but null, false, zero and what is empty. -/
def truthy : Json → Bool
  | .null => false
  | .bool b => b
  | .int n => n ≠ 0
  | .float f => f != 0
  | .str s => s ≠ .whole ""
  | .arr items => !items.isEmpty
  | .obj fields => !fields.isEmpty

/-- A list of strings. -/
def strings (items : List String) : Json :=
  .arr (items.map fun s => .str (.whole s))

/-- A natural number. -/
def nat (n : Nat) : Json := .int n

mutual

/-- The value as messages show it inside another one: strings quoted, `None`, `True`, `False`. -/
def quoted : Json → Text
  | .null => "None".toList
  | .bool true => "True".toList
  | .bool false => "False".toList
  | .int n => (toString n).toList
  | .float f => (Decimal.floatText f "nan" "inf").toList
  | .str s => s.quoted
  | .arr items => '[' :: quotedItems items ++ [']']
  | .obj fields => '{' :: quotedFields fields ++ ['}']

def quotedItems : List Json → Text
  | [] => []
  | [v] => quoted v
  | v :: rest => quoted v ++ [',', ' '] ++ quotedItems rest

def quotedFields : List (Literal × Json) → Text
  | [] => []
  | [(k, v)] => k.quoted ++ [':', ' '] ++ quoted v
  | (k, v) :: rest => k.quoted ++ [':', ' '] ++ quoted v ++ [',', ' '] ++ quotedFields rest

end

/-- The value as messages show it by itself: a string is its own text. -/
def display : Json → String
  | .str s => s.shown
  | v => String.ofList (quoted v)

mutual

/-- Whether no string in the value, and no key, holds a half. -/
def isWhole : Json → Bool
  | .str s => s.isWhole
  | .arr items => areWhole items
  | .obj fields => areWholeFields fields
  | _ => true

def areWhole : List Json → Bool
  | [] => true
  | v :: rest => isWhole v && areWhole rest

def areWholeFields : List (Literal × Json) → Bool
  | [] => true
  | (k, v) :: rest => k.isWhole && isWhole v && areWholeFields rest

end

mutual

/-- How many values lie in one another, where the innermost one counts as `leaf` unless it is a list
or an object. -/
def nesting (leaf : Nat) : Json → Nat
  | .arr items => nestingItems leaf items + 1
  | .obj fields => nestingFields leaf fields + 1
  | _ => leaf

def nestingItems (leaf : Nat) : List Json → Nat
  | [] => 0
  | v :: rest => max (nesting leaf v) (nestingItems leaf rest)

def nestingFields (leaf : Nat) : List (Literal × Json) → Nat
  | [] => 0
  | (_, v) :: rest => max (nesting leaf v) (nestingFields leaf rest)

end

end Json

end TextEditor
