import TextEditor.Text.Quoted

/-!
# What JSON strings write

A JSON string writes a text.  An escape can also write one half of a pair of UTF-16 units by itself,
which is no character: what holds one has no bytes in UTF-8, and cannot be sent.
-/

namespace TextEditor.Json

/-- A character, or half of a pair of UTF-16 units. -/
inductive Point where
  | char (c : Char)
  /-- The unit at that place among the halves. -/
  | half (place : Fin 0x800)
  deriving DecidableEq, Repr

namespace Point

/-- The point that one UTF-16 unit writes. -/
def ofUnit (n : Nat) : Point :=
  if h : 0xD800 ≤ n ∧ n < 0xE000 then .half ⟨n - 0xD800, by omega⟩ else .char (Char.ofNat n)

def char? : Point → Option Char
  | .char c => some c
  | .half _ => none

/-- The character, or the one that stands for what is none. -/
def shown (p : Point) : Char :=
  p.char?.getD '\uFFFD'

/-- The digits that write a half. -/
def halfDigits (place : Fin 0x800) : Text :=
  '\\' :: 'u' :: Text.Quoted.hexDigits 4 (0xD800 + place)

/-- One point between quotes. -/
def quoted (quote : Char) : Point → Text
  | .char c => Text.Quoted.encodeChar quote c
  | .half place => halfDigits place

end Point

/-- What a JSON string writes: a text, or points with a half among them. -/
inductive Literal where
  | whole (s : String)
  | halved (ahead : String) (half : Fin 0x800) (rest : List Point)
  deriving DecidableEq, Repr

namespace Literal

instance : Coe String Literal := ⟨.whole⟩

def points : Literal → List Point
  | .whole s => s.toList.map .char
  | .halved ahead half rest => ahead.toList.map .char ++ .half half :: rest

def ofPoints (points : List Point) : Literal :=
  let ahead := String.ofList ((points.takeWhile (·.char?.isSome)).filterMap Point.char?)
  match points.dropWhile (·.char?.isSome) with
  | .half place :: rest => .halved ahead place rest
  | _ => .whole ahead

/-- Whether no half is in it. -/
def isWhole : Literal → Bool
  | .whole _ => true
  | .halved .. => false

/-- The text, with a character in the place of each half. -/
def shown : Literal → String
  | .whole s => s
  | l => String.ofList (l.points.map Point.shown)

/-- What is written between quotes, with a half in its digits. -/
def quoted (l : Literal) : Text :=
  let points := l.points
  let quote := Text.Quoted.chooseQuote (points.contains (.char '\'')) (points.contains (.char '"'))
  quote :: points.flatMap (Point.quoted quote) ++ [quote]

def append (l m : Literal) : Literal :=
  ofPoints (l.points ++ m.points)

end Literal

end TextEditor.Json
