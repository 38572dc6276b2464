import TextEditor.Bytes.Utf8

/-!
# Addresses of documents

The address of a document is its absolute path, without `.`, `..` and empty parts, where every byte
outside the unreserved characters and the slash is written as a percent sign and two digits.
-/

namespace TextEditor.Server.Uri

/-- The parts of an absolute path that are left when `.`, `..` and empty ones are resolved.
`above` holds the parts reached so far, the last first. -/
def resolve (above : List Text) : List Text → List Text
  | [] => above.reverse
  | part :: rest =>
    if part.isEmpty || part = ['.'] then resolve above rest
    else if part = ['.', '.'] then resolve above.tail rest
    else resolve (part :: above) rest

def isUnreserved (b : UInt8) : Bool :=
  let n := b.toNat
  (48 ≤ n && n ≤ 57) || (65 ≤ n && n ≤ 90) || (97 ≤ n && n ≤ 122) ||
    n = 45 || n = 46 || n = 95 || n = 126 || n = 47

/-- One hexadecimal digit in upper case. -/
def upperHex (n : Nat) : Char :=
  (Nat.digitChar n).toUpper

/-- One byte of an address. -/
def encodeByte (b : UInt8) : Text :=
  if isUnreserved b then [Char.ofNat b.toNat]
  else ['%', upperHex (b.toNat / 16), upperHex (b.toNat % 16)]

/-- The address of the document at a path.  A path that does not begin at the root is taken to begin
there: which directory the editor runs in is not known here.  Links are not followed, as there are
no files that they could lead to, so two paths to one file have two addresses.  Every path has an
address, also one that no file can have. -/
def ofPath (path : String) : String :=
  let parts := resolve [] (Text.splitOn '/' path.toList)
  let absolute := '/' :: (['/'] : Text).intercalate parts
  "file://" ++ String.ofList ((Utf8.encode absolute).flatMap encodeByte)

end TextEditor.Server.Uri
