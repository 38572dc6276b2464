/-!
# Shortest decimals

The fewest decimal digits that read back as a given binary number, and of those the nearest.  A
finite positive number is `m * 2 ^ q`; the reals that round to it form an interval around it whose
ends belong to it when `m` is even.  For one digit, two digits and so on, the two neighbours of
the number on that decimal grid are tried, in exact arithmetic.
-/

namespace TextEditor

/-- A positive binary number `m * 2 ^ q`.  `narrowBelow` says that its lower neighbour is only
half as far away as its upper one. -/
structure Binary where
  m : Nat
  q : Int
  narrowBelow : Bool
  deriving DecidableEq, Repr

/-- `digits * 10 ^ exponent`. -/
structure Decimal where
  digits : Nat
  exponent : Int
  deriving DecidableEq, Repr

/-- The number that the bits of a finite 64-bit float stand for, without its sign. -/
def Binary.ofBits (bits : UInt64) : Binary :=
  let n := bits.toNat
  let fraction := n % (1 <<< 52)
  let biased : Nat := (n >>> 52) % (1 <<< 11)
  if biased = 0 then ⟨fraction, -1074, false⟩
  else ⟨(1 <<< 52) + fraction, (biased : Int) - 1075, fraction = 0 && 1 < biased⟩

namespace Decimal

/-- A number in units of `10 ^ grid`: four times its numerator, and the denominator times four. -/
def scaled (b : Binary) (grid : Int) : Nat × Nat :=
  (Nat.pow 10 (-grid).toNat <<< b.q.toNat, (4 * Nat.pow 10 grid.toNat) <<< (-b.q).toNat)

/-- Whether `k * 10 ^ grid` rounds to the number. -/
def readsBack (b : Binary) (grid : Int) (k : Nat) : Bool :=
  let (unit, den) := scaled b grid
  let low := (4 * b.m - (if b.narrowBelow then 1 else 2)) * unit
  let high := (4 * b.m + 2) * unit
  let x := k * den
  if b.m % 2 = 0 then low ≤ x && x ≤ high else low < x && x < high

/-- The nearest point of the grid that reads back, if one does.  Of two equally near points the
even one is taken. -/
def onGrid? (b : Binary) (grid : Int) : Option Nat :=
  let (unit, den) := scaled b grid
  let value := 4 * b.m * unit
  let below := value / den
  let above := below + 1
  match readsBack b grid below, readsBack b grid above with
  | true, true =>
    let down := value - below * den
    let up := above * den - value
    if down < up then some below
    else if up < down then some above
    else if below % 2 = 0 then some below
    else some above
  | true, false => some below
  | false, true => some above
  | false, false => none

/-- The exponent of the leading decimal digit. -/
def leadingExponent (b : Binary) : Int :=
  let scaledValue := ((b.m * Nat.pow 10 400) <<< b.q.toNat) >>> (-b.q).toNat
  ((Nat.toDigits 10 scaledValue).length : Int) - 401

/-- The number without trailing zeros; at most `fuel` of them are dropped. -/
def trimZeros : (fuel : Nat) → Decimal → Decimal
  | 0, d => d
  | fuel + 1, d =>
    if d.digits ≠ 0 && d.digits % 10 = 0 then trimZeros fuel ⟨d.digits / 10, d.exponent + 1⟩ else d

/-- The shortest decimal that reads back as the number. -/
def shortest (b : Binary) : Decimal :=
  let lead := leadingExponent b
  let found := (List.range 17).findSome? fun (extra : Nat) =>
    let grid := lead - (extra : Int)
    (onGrid? b grid).map fun k => trimZeros 18 ⟨k, grid⟩
  found.getD ⟨b.m, b.q⟩

/-- A number whose grid point is the number itself reads back. -/
theorem readsBack_of_onGrid? {b : Binary} {grid : Int} {k : Nat} (h : onGrid? b grid = some k) :
    readsBack b grid k = true := by
  simp only [onGrid?] at h
  split at h
  · next hbelow habove =>
    split at h
    · simp_all
    · split at h
      · simp_all
      · split at h <;> simp_all
  · simp_all
  · simp_all
  · simp at h

end Decimal

end TextEditor
