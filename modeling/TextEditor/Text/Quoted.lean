import TextEditor.Text.Printable
import TextEditor.Text.Basic

/-!
# Quoted text

The quoted form in which names and bytes appear in messages.  A text stands between single quotes,
or between double quotes when it holds a single quote and no double quote.  The backslash, the
quote in use and the characters that do not print are escaped; bytes are quoted alike after a `b`,
with everything outside the printable ASCII range escaped.
-/

namespace TextEditor.Text.Quoted

/-- The last `width` hexadecimal digits of `n`, in lower case. -/
def hexDigits (width n : Nat) : Text :=
  let digits := (Nat.toDigits 16 n)
  List.replicate (width - digits.length) '0' ++ digits

/-- The quote that surrounds a text in which the given quotes occur. -/
def chooseQuote (hasSingle hasDouble : Bool) : Char :=
  if hasSingle && !hasDouble then '"' else '\''

/-- One character between quotes. -/
def encodeChar (quote c : Char) : Text :=
  if c = quote || c = '\\' then ['\\', c]
  else if c = '\n' then ['\\', 'n']
  else if c = '\r' then ['\\', 'r']
  else if c = '\t' then ['\\', 't']
  else if isPrintable c then [c]
  else if c.toNat < 0x100 then '\\' :: 'x' :: hexDigits 2 c.toNat
  else if c.toNat < 0x10000 then '\\' :: 'u' :: hexDigits 4 c.toNat
  else '\\' :: 'U' :: hexDigits 8 c.toNat

/-- A text between quotes. -/
def encode (t : Text) : Text :=
  let quote := chooseQuote (t.contains '\'') (t.contains '"')
  quote :: t.flatMap (encodeChar quote) ++ [quote]

/-- One byte between quotes. -/
def encodeByte (quote : Char) (b : UInt8) : Text :=
  if b.toNat < 128 then
    let c := Char.ofNat b.toNat
    if c.toNat < 128 && isPrintable c || c = '\n' || c = '\r' || c = '\t' then encodeChar quote c
    else '\\' :: 'x' :: hexDigits 2 b.toNat
  else '\\' :: 'x' :: hexDigits 2 b.toNat

/-- Bytes between quotes, after a `b`. -/
def encodeBytes (bytes : List UInt8) : Text :=
  let quote := chooseQuote (bytes.contains 39) (bytes.contains 34)
  'b' :: quote :: bytes.flatMap (encodeByte quote) ++ [quote]

/-- A list of names between brackets. -/
def encodeNames (names : List String) : Text :=
  '[' :: (", ".toList.intercalate (names.map fun name => encode name.toList)) ++ [']']

theorem encode_ne_nil (t : Text) : encode t ≠ [] := by
  simp [encode]

end TextEditor.Text.Quoted
