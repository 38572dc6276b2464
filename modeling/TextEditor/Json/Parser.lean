import TextEditor.Json.Basic
import TextEditor.Text.Integer

/-!
# Reading JSON

A strict reader of JSON that also takes `NaN`, `Infinity` and `-Infinity`.  The last of repeated
keys wins.  A refused text is reported with the cause and the place, counted in characters; the
place is kept as the number of characters from there to the end until the message is made.

Lists and objects may be given room for so many of them in one another; the one for which there is
no room is refused where it begins.
-/

namespace TextEditor.Json

/-- Why a text is not JSON. -/
inductive Cause where
  | byteOrderMark
  | expectingValue
  | expectingName
  | expectingColon
  | expectingComma
  | controlCharacter
  | unterminatedString
  | invalidEscape
  | invalidUnicodeEscape
  | extraData
  | tooManyDigits (digits : Nat)
  | nesting
  deriving DecidableEq, Repr

/-- A cause, and how many characters of the text are left from the place it is found. -/
structure Defect where
  cause : Cause
  left : Nat
  deriving DecidableEq, Repr

def Cause.message : Cause → String
  | .byteOrderMark => "Unexpected UTF-8 BOM (decode using utf-8-sig)"
  | .expectingValue => "Expecting value"
  | .expectingName => "Expecting property name enclosed in double quotes"
  | .expectingColon => "Expecting ':' delimiter"
  | .expectingComma => "Expecting ',' delimiter"
  | .controlCharacter => "Invalid control character at"
  | .unterminatedString => "Unterminated string starting at"
  | .invalidEscape => "Invalid \\escape"
  | .invalidUnicodeEscape => "Invalid \\uXXXX escape"
  | .extraData => "Extra data"
  | .tooManyDigits digits => (Text.IntegerDefect.tooLong digits).message
  | .nesting => "maximum recursion depth exceeded"

/-- The cause with line, column and character of its place in `source`; a number that is too long,
or values that are nested too deeply, are reported without a place. -/
def Defect.message (source : Text) (d : Defect) : String :=
  match d.cause with
  | .tooManyDigits _ | .nesting => d.cause.message
  | cause =>
    let place := source.length - d.left
    let ahead := source.take place
    let line := ahead.count '\n' + 1
    let column := (ahead.reverse.takeWhile (· ≠ '\n')).length + 1
    s!"{cause.message}: line {line} column {column} (char {place})"

def isJsonSpace (c : Char) : Bool :=
  c = ' ' || c = '\t' || c = '\n' || c = '\r'

def skipSpace (t : Text) : Text :=
  t.dropWhile isJsonSpace

/-- The value of a hexadecimal digit. -/
def hexValue? (c : Char) : Option Nat :=
  if '0' ≤ c && c ≤ '9' then some (c.toNat - '0'.toNat)
  else if 'a' ≤ c && c ≤ 'f' then some (c.toNat - 'a'.toNat + 10)
  else if 'A' ≤ c && c ≤ 'F' then some (c.toNat - 'A'.toNat + 10)
  else none

/-- The unit that four hexadecimal digits at the front write. -/
def unit? : Text → Option Nat
  | a :: b :: c :: d :: _ =>
    match hexValue? a, hexValue? b, hexValue? c, hexValue? d with
    | some a, some b, some c, some d => some (((a * 16 + b) * 16 + c) * 16 + d)
    | _, _, _, _ => none
  | _ => none

/-- The point that an escape writes and how many characters it takes after the backslash.  `t` is
the text after the backslash. -/
def escape (t : Text) : Except Defect (Point × Nat) :=
  match t with
  | '"' :: _ => .ok (.char '"', 1)
  | '\\' :: _ => .ok (.char '\\', 1)
  | '/' :: _ => .ok (.char '/', 1)
  | 'b' :: _ => .ok (.char '\x08', 1)
  | 'f' :: _ => .ok (.char '\x0c', 1)
  | 'n' :: _ => .ok (.char '\n', 1)
  | 'r' :: _ => .ok (.char '\r', 1)
  | 't' :: _ => .ok (.char '\t', 1)
  | 'u' :: digits =>
    if digits.length < 5 then .error ⟨.invalidUnicodeEscape, t.length⟩
    else
      match unit? digits with
      | none => .error ⟨.invalidUnicodeEscape, t.length⟩
      | some high =>
        let rest := digits.drop 4
        if 0xD800 ≤ high && high ≤ 0xDBFF && 6 < rest.length && rest.take 2 = ['\\', 'u'] then
          match unit? (rest.drop 2) with
          | none => .error ⟨.invalidUnicodeEscape, rest.length - 1⟩
          | some low =>
            if 0xDC00 ≤ low && low ≤ 0xDFFF then
              let code := 0x10000 + (high - 0xD800) * 0x400 + (low - 0xDC00)
              .ok (.char (Char.ofNat code), 11)
            else .ok (.ofUnit high, 5)
        else .ok (.ofUnit high, 5)
  | _ => .error ⟨.invalidEscape, t.length + 1⟩

/-- The rest of a string after its first `skip` characters, and the text after its closing quote.
`start` is the number of characters left at the opening quote. -/
def stringFrom (start : Nat) : (skip : Nat) → Text → Except Defect (List Point × Text)
  | _, [] => .error ⟨.unterminatedString, start⟩
  | skip + 1, _ :: rest => stringFrom start skip rest
  | 0, '"' :: rest => .ok ([], rest)
  | 0, '\\' :: rest =>
    if rest.isEmpty then .error ⟨.unterminatedString, start⟩
    else
      match escape rest with
      | .error defect => .error defect
      | .ok (p, width) =>
        match stringFrom start width rest with
        | .error defect => .error defect
        | .ok (points, after) => .ok (p :: points, after)
  | 0, c :: rest =>
    if c.toNat < 0x20 then .error ⟨.controlCharacter, rest.length + 1⟩
    else
      match stringFrom start 0 rest with
      | .error defect => .error defect
      | .ok (points, after) => .ok (.char c :: points, after)

/-- The number that ASCII digits write. -/
def natOfDigits (digits : Text) : Nat :=
  digits.foldl (fun total c => total * 10 + (c.toNat - '0'.toNat)) 0

/-- The digits of a fraction after its point, if there are any, and the text after them. -/
def fractionPart (t : Text) : Text × Text :=
  match t with
  | '.' :: rest =>
    match rest.takeWhile Char.isDigit with
    | [] => ([], t)
    | digits => (digits, rest.dropWhile Char.isDigit)
  | _ => ([], t)

/-- The exponent after its mark, if it has digits, and the text after it. -/
def exponentPart (t : Text) : Option Int × Text :=
  match t with
  | mark :: rest =>
    if mark = 'e' || mark = 'E' then
      let (negative, tail) :=
        match rest with
        | '-' :: tail => (true, tail)
        | '+' :: tail => (false, tail)
        | tail => (false, tail)
      match tail.takeWhile Char.isDigit with
      | [] => (none, t)
      | digits =>
        let magnitude : Int := natOfDigits digits
        (some (if negative then -magnitude else magnitude), tail.dropWhile Char.isDigit)
    else (none, t)
  | [] => (none, t)

/-- The number at the front of `t`, with fraction and exponent only where they have digits. -/
def number (t : Text) : Except Defect (Json × Text) :=
  let (negative, body) :=
    match t with
    | '-' :: body => (true, body)
    | body => (false, body)
  let whole := match body with
    | '0' :: _ => ['0']
    | _ => body.takeWhile Char.isDigit
  if whole.isEmpty then .error ⟨.expectingValue, t.length⟩
  else
    let (fraction, afterFraction) := fractionPart (body.drop whole.length)
    let (exponent, rest) := exponentPart afterFraction
    if fraction.isEmpty && exponent.isNone then
      if whole.length > Text.integerDigitLimit then
        .error ⟨.tooManyDigits whole.length, t.length⟩
      else
        let magnitude : Int := natOfDigits whole
        .ok (.int (if negative then -magnitude else magnitude), rest)
    else
      let power := exponent.getD 0 - (fraction.length : Int)
      let magnitude := Decimal.toFloat (natOfDigits (whole ++ fraction)) power
      .ok (.float (if negative then -magnitude else magnitude), rest)

/-- A word that stands for a value. -/
def words : List (Text × Json) :=
  [("null".toList, .null), ("true".toList, .bool true), ("false".toList, .bool false),
    ("NaN".toList, .float (0.0 / 0.0)), ("Infinity".toList, .float (1.0 / 0.0)),
    ("-Infinity".toList, .float (-1.0 / 0.0))]

/-- A word or a number. -/
def scalar (t : Text) : Except Defect (Json × Text) :=
  match words.find? fun word => word.1.isPrefixOf t with
  | some (word, value) => .ok (value, t.drop word.length)
  | none => number t

mutual

/-- The value at the front of `t`.  Each step uses up a character, so `fuel` beyond the length of
the text is never used up.  No `room` is room without end. -/
def valueFrom : (fuel : Nat) → (room : Option Nat) → Text → Except Defect (Json × Text)
  | 0, _, t => .error ⟨.expectingValue, t.length⟩
  | fuel + 1, room, t =>
    match t with
    | '"' :: rest =>
      match stringFrom t.length 0 rest with
      | .error defect => .error defect
      | .ok (points, after) => .ok (.str (.ofPoints points), after)
    | '[' :: rest =>
      if room = some 0 then .error ⟨.nesting, t.length⟩
      else
        match skipSpace rest with
        | ']' :: after => .ok (.arr [], after)
        | items =>
          match itemsFrom fuel (room.map Nat.pred) items with
          | .error defect => .error defect
          | .ok (values, after) => .ok (.arr values, after)
    | '{' :: rest =>
      if room = some 0 then .error ⟨.nesting, t.length⟩
      else
        match skipSpace rest with
        | '}' :: after => .ok (.obj [], after)
        | members =>
          match membersFrom fuel (room.map Nat.pred) members with
          | .error defect => .error defect
          | .ok (fields, after) => .ok (ofFields fields, after)
    | _ => scalar t

/-- The items of an array up to its closing bracket. -/
def itemsFrom : (fuel : Nat) → (room : Option Nat) → Text → Except Defect (List Json × Text)
  | 0, _, t => .error ⟨.expectingValue, t.length⟩
  | fuel + 1, room, t =>
    match valueFrom fuel room t with
    | .error defect => .error defect
    | .ok (value, after) =>
      match skipSpace after with
      | ']' :: rest => .ok ([value], rest)
      | ',' :: rest =>
        match itemsFrom fuel room (skipSpace rest) with
        | .error defect => .error defect
        | .ok (values, rest) => .ok (value :: values, rest)
      | other => .error ⟨.expectingComma, other.length⟩

/-- The members of an object up to its closing brace. -/
def membersFrom : (fuel : Nat) → (room : Option Nat) → Text →
    Except Defect (List (Literal × Json) × Text)
  | 0, _, t => .error ⟨.expectingName, t.length⟩
  | fuel + 1, room, t =>
    match t with
    | '"' :: rest =>
      match stringFrom t.length 0 rest with
      | .error defect => .error defect
      | .ok (points, afterKey) =>
        match skipSpace afterKey with
        | ':' :: afterColon =>
          match valueFrom fuel room (skipSpace afterColon) with
          | .error defect => .error defect
          | .ok (value, after) =>
            match skipSpace after with
            | '}' :: rest => .ok ([(.ofPoints points, value)], rest)
            | ',' :: rest =>
              match membersFrom fuel room (skipSpace rest) with
              | .error defect => .error defect
              | .ok (fields, rest) => .ok ((.ofPoints points, value) :: fields, rest)
            | other => .error ⟨.expectingComma, other.length⟩
        | other => .error ⟨.expectingColon, other.length⟩
    | other => .error ⟨.expectingName, other.length⟩

end

/-- The one value that the whole text writes, read with the given room. -/
def parse (t : Text) (room : Option Nat := none) : Except Defect Json :=
  if t.head? = some '\uFEFF' then .error ⟨.byteOrderMark, t.length⟩
  else
    match valueFrom (2 * t.length + 2) room (skipSpace t) with
    | .error defect => .error defect
    | .ok (value, rest) =>
      match skipSpace rest with
      | [] => .ok value
      | extra => .error ⟨.extraData, extra.length⟩

end TextEditor.Json
