import TextEditor.Text.DecimalDigit
import TextEditor.Text.Quoted
import TextEditor.Text.Whitespace

/-!
# Reading integers

A typed integer may stand between white space and have one sign; its digits may come from any
script, and a single underscore may stand between two digits.  The separators 28 to 31 are no white
space here.  More than 4300 digits are refused, the leading zeros included.
-/

namespace TextEditor.Text

/-- Why a text is no integer. -/
inductive IntegerDefect where
  /-- It is not a sign and digits. -/
  | malformed (text : Text)
  /-- It has more digits than are read. -/
  | tooLong (digits : Nat)
  deriving DecidableEq, Repr

/-- The most digits that an integer may have. -/
def integerDigitLimit : Nat := 4300

/-- What is said of a refused integer; a long text is quoted up to 200 characters. -/
def IntegerDefect.message : IntegerDefect → String
  | .malformed text =>
    "invalid literal for int() with base 10: " ++ String.ofList ((Quoted.encode text).take 200)
  | .tooLong digits =>
    s!"Exceeds the limit ({integerDigitLimit} digits) for integer string conversion: " ++
      s!"value has {digits} digits; use sys.set_int_max_str_digits() to increase the limit"

/-- The values of digits that may have single underscores between them. -/
def digitValues? : Text → Option (List Nat)
  | [] => none
  | [c] => (decimalValue? c).map fun value => [value]
  | c :: '_' :: rest =>
    match decimalValue? c, digitValues? rest with
    | some value, some values => some (value :: values)
    | _, _ => none
  | c :: rest =>
    match decimalValue? c, digitValues? rest with
    | some value, some values => some (value :: values)
    | _, _ => none

/-- The number that decimal digits write, the most significant first. -/
def ofDigitValues (values : List Nat) : Nat :=
  values.foldl (fun total value => total * 10 + value) 0

/-- White space that may surround a number: that of ASCII, and above ASCII that of Unicode. -/
def isNumberSpace (c : Char) : Bool :=
  isAsciiWhitespace c || (128 ≤ c.toNat && isWhitespace c)

/-- The text without the white space around a number. -/
def trimNumber (t : Text) : Text :=
  ((t.dropWhile isNumberSpace).reverse.dropWhile isNumberSpace).reverse

/-- The integer that the text writes. -/
def readInteger (t : Text) : Except IntegerDefect Int :=
  let body := trimNumber t
  let (negative, digits) :=
    match body with
    | '-' :: rest => (true, rest)
    | '+' :: rest => (false, rest)
    | rest => (false, rest)
  match digitValues? digits with
  | none => .error (.malformed t)
  | some values =>
    if values.length > integerDigitLimit then .error (.tooLong values.length)
    else
      let magnitude : Int := ofDigitValues values
      .ok (if negative then -magnitude else magnitude)

end TextEditor.Text
