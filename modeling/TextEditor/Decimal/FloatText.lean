import TextEditor.Decimal.Shortest

/-!
# The text of a float

How messages and logs write a 64-bit float, and how a decimal is read as one.  The shortest
digits are written positionally while the exponent of the first is at least -4 and below 16, with
a fraction of at least one digit; otherwise the exponent follows an `e`, with its sign and at least
two digits.
-/

namespace TextEditor.Decimal

/-- Decimal digits of a number, most significant first. -/
def digitText (n : Nat) : List Char := Nat.toDigits 10 n

/-- A positive decimal in the notation of messages and logs. -/
def text (d : Decimal) : String :=
  let digits := digitText d.digits
  let lead : Int := d.exponent + (digits.length : Int) - 1
  let body : List Char :=
    if lead < -4 || 16 ≤ lead then
      let fraction := match digits.tail with
        | [] => []
        | rest => '.' :: rest
      let sign := if lead < 0 then '-' else '+'
      let power := digitText lead.natAbs
      digits.take 1 ++ fraction ++ ['e', sign] ++ List.replicate (2 - power.length) '0' ++ power
    else if lead < 0 then
      '0' :: '.' :: List.replicate (lead.natAbs - 1) '0' ++ digits
    else
      let whole := lead.toNat + 1
      let front := digits.take whole ++ List.replicate (whole - digits.length) '0'
      match digits.drop whole with
      | [] => front ++ ['.', '0']
      | rest => front ++ '.' :: rest
  String.ofList body

/-- The shortest text that reads back as a finite float. -/
def finiteText (f : Float) : String :=
  let bits := f.toBits
  let sign := if bits.toNat >>> 63 = 1 then "-" else ""
  if bits.toNat % (1 <<< 63) = 0 then sign ++ "0.0"
  else sign ++ (shortest (Binary.ofBits bits)).text

/-- The text of any float, with the given words for the values that have no digits. -/
def floatText (f : Float) (nan infinity : String) : String :=
  if f.isNaN then nan
  else if f.isInf then (if f < 0 then "-" ++ infinity else infinity)
  else finiteText f

/-- The float nearest to `digits * 10 ^ exponent`. -/
def toFloat (digits : Nat) (exponent : Int) : Float :=
  let lead := exponent + ((digitText digits).length : Int)
  if digits = 0 then 0.0
  else if 400 < lead then 1.0 / 0.0
  else if lead < -400 then 0.0
  else Float.ofScientific digits (exponent < 0) exponent.natAbs

end TextEditor.Decimal
