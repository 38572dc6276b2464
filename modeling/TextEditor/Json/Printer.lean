import TextEditor.Bytes.Utf8
import TextEditor.Json.Basic

/-!
# Printing JSON

Compact JSON: no spaces, keys in their order.  A string escapes the quote, the backslash and the
characters below the space, and is otherwise written as it is, or in ASCII alone with an escape for
each UTF-16 unit of every other character.
-/

namespace TextEditor.Json

open Text.Quoted (hexDigits)

/-- One character of a JSON string. -/
def printChar (c : Char) : Text :=
  if c = '"' then ['\\', '"']
  else if c = '\\' then ['\\', '\\']
  else if c = '\n' then ['\\', 'n']
  else if c = '\r' then ['\\', 'r']
  else if c = '\t' then ['\\', 't']
  else if c = '\x08' then ['\\', 'b']
  else if c = '\x0c' then ['\\', 'f']
  else if c.toNat < 0x20 then '\\' :: 'u' :: hexDigits 4 c.toNat
  else [c]

/-- One character of a JSON string in ASCII. -/
def printCharAscii (c : Char) : Text :=
  let n := c.toNat
  if n < 0x80 then printChar c
  else if n < 0x10000 then '\\' :: 'u' :: hexDigits 4 n
  else
    let pair := n - 0x10000
    '\\' :: 'u' :: hexDigits 4 (0xD800 + pair / 0x400) ++
      '\\' :: 'u' :: hexDigits 4 (0xDC00 + pair % 0x400)

/-- One point of a JSON string with the given form of its characters. -/
def printPoint (char : Char → Text) : Point → Text
  | .char c => char c
  | .half place => Point.halfDigits place

/-- A JSON string with the given form of its characters. -/
def printString (char : Char → Text) (s : Literal) : Text :=
  '"' :: s.points.flatMap (printPoint char) ++ ['"']

mutual

/-- A value with the given form of the characters in its strings. -/
def printWith (char : Char → Text) : Json → Text
  | .null => "null".toList
  | .bool true => "true".toList
  | .bool false => "false".toList
  | .int n => (toString n).toList
  | .float f => (Decimal.floatText f "NaN" "Infinity").toList
  | .str s => printString char s
  | .arr items => '[' :: printItems char items ++ [']']
  | .obj fields => '{' :: printFields char fields ++ ['}']

def printItems (char : Char → Text) : List Json → Text
  | [] => []
  | [v] => printWith char v
  | v :: rest => printWith char v ++ ',' :: printItems char rest

def printFields (char : Char → Text) : List (Literal × Json) → Text
  | [] => []
  | [(k, v)] => printString char k ++ ':' :: printWith char v
  | (k, v) :: rest =>
    printString char k ++ ':' :: printWith char v ++ ',' :: printFields char rest

end

/-- Compact JSON. -/
def print (v : Json) : Text :=
  printWith printChar v

/-- Compact JSON in ASCII alone. -/
def printAscii (v : Json) : String :=
  String.ofList (printWith printCharAscii v)

/-- Compact JSON in UTF-8. -/
def printBytes (v : Json) : Bytes :=
  Utf8.encode (print v)

end TextEditor.Json
