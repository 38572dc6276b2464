import TextEditor.Decimal.FloatText

/-!
# Coordinates

Points and rectangles on the screen are measured in floats, or, where cells have size one, in
exact whole numbers.  `Coordinate` lists the arithmetic that the layout of a text needs of them.
-/

namespace TextEditor

/-- Why a coordinate gives no whole number, or a whole number no coordinate. -/
inductive CoordinateFault where
  | notANumber
  | infinite
  | tooLarge
  deriving DecidableEq, Repr

def CoordinateFault.message : CoordinateFault → String
  | .notANumber => "cannot convert float NaN to integer"
  | .infinite => "cannot convert float infinity to integer"
  | .tooLarge => "int too large to convert to float"

/-- The arithmetic of screen coordinates. -/
class Coordinate (α : Type) where
  zero : α
  /-- The coordinate of a whole number. -/
  ofInt : Int → Except CoordinateFault α
  mul : α → α → α
  add : α → α → α
  sub : α → α → α
  /-- The quotient. -/
  ratio : α → α → α
  /-- The largest whole coordinate that is not above the quotient. -/
  floorRatio : α → α → α
  /-- The coordinate itself, or zero if that is greater. -/
  nonnegative : α → α
  /-- The whole number that is left when the fraction is cut off. -/
  truncate : α → Except CoordinateFault Int
  /-- Whether the coordinate is at least one half. -/
  atLeastHalf : α → Bool
  /-- Whether the coordinate is below or equal to zero. -/
  nonpositive : α → Bool

/-- Exact whole numbers. -/
instance : Coordinate Int where
  zero := 0
  ofInt n := .ok n
  mul := (· * ·)
  add := (· + ·)
  sub := (· - ·)
  ratio := Int.fdiv
  floorRatio := Int.fdiv
  nonnegative x := max x 0
  truncate x := .ok x
  atLeastHalf x := 1 ≤ x
  nonpositive x := x ≤ 0

namespace Binary

/-- A finite float without its sign as a whole number times a power of two. -/
def ofFloat (f : Float) : Binary :=
  ofBits f.toBits

/-- The whole part of the number. -/
def truncate (b : Binary) : Nat :=
  (b.m <<< b.q.toNat) >>> (-b.q).toNat

/-- The remainder of one number after another, as a multiple of a power of two. -/
def remainder (x y : Binary) : Nat × Int :=
  let q := min x.q y.q
  ((x.m <<< (x.q - q).toNat) % (y.m <<< (y.q - q).toNat), q)

end Binary

/-- Whether the sign bit of a float is set. -/
def signBit (f : Float) : Bool :=
  f.toBits.toNat >>> 63 = 1

/-- The float with the sign of another one. -/
def withSignOf (f sign : Float) : Float :=
  if signBit f = signBit sign then f else -f

/-- The float `m * 2 ^ q`, where that is one. -/
def floatOfBinary (m : Nat) (q : Int) : Float :=
  if m = 0 then 0.0
  else
    -- The first digit goes where the format has it, unless the exponent cannot be that small.
    let shift := min (52 - (m.log2 : Int)) (q + 1074)
    let digits := m <<< shift.toNat
    let biased := if digits < 1 <<< 52 then 0 else (q - shift + 1075).toNat
    Float.ofBits (UInt64.ofNat ((biased <<< 52) + digits % (1 <<< 52)))

/-- The exact remainder of a division that rounds toward zero; it has the sign of `x`. -/
def floatRemainder (x y : Float) : Float :=
  if x.isNaN || y.isNaN || x.isInf || y == 0.0 then 0.0 / 0.0
  else if y.isInf then x
  else
    let (r, q) := Binary.remainder (Binary.ofFloat x) (Binary.ofFloat y)
    withSignOf (floatOfBinary r q) x

/-- The largest whole float that is not above a float. -/
def floatFloor (f : Float) : Float :=
  let b := Binary.ofFloat f
  if f.isNaN || f.isInf || 0 ≤ b.q then f
  else
    let whole := b.truncate
    if !signBit f then Float.ofNat whole
    else if whole <<< (-b.q).toNat = b.m then -Float.ofNat whole
    else -Float.ofNat (whole + 1)

/-- The quotient of floats rounded down, found from the remainder, so that the result does not
depend on how the quotient itself is rounded. -/
def floatFloorRatio (x y : Float) : Float :=
  let remainder := floatRemainder x y
  let quotient := (x - remainder) / y
  let quotient :=
    if remainder != 0.0 && (y < 0.0) != (remainder < 0.0) then quotient - 1.0 else quotient
  if quotient != 0.0 then
    let down := floatFloor quotient
    if quotient - down > 0.5 then down + 1.0 else down
  else withSignOf 0.0 (x / y)

/-- A float without its fraction. -/
def floatTruncate (f : Float) : Except CoordinateFault Int :=
  if f.isNaN then .error .notANumber
  else if f.isInf then .error .infinite
  else
    let magnitude : Int := (Binary.ofFloat f).truncate
    .ok (if signBit f then -magnitude else magnitude)

/-- The float nearest to a whole number. -/
def floatOfInt (n : Int) : Except CoordinateFault Float :=
  let magnitude := Decimal.toFloat n.natAbs 0
  if magnitude.isInf then .error .tooLarge else .ok (if n < 0 then -magnitude else magnitude)

instance : Coordinate Float where
  zero := 0.0
  ofInt := floatOfInt
  mul := (· * ·)
  add := (· + ·)
  sub := (· - ·)
  ratio := (· / ·)
  floorRatio := floatFloorRatio
  nonnegative x := if 0.0 > x then 0.0 else x
  truncate := floatTruncate
  atLeastHalf x := x >= 0.5
  nonpositive x := x <= 0.0

end TextEditor
