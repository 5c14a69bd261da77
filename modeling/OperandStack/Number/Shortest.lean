import OperandStack.Number.Binary

/-!
# Shortest decimal digits

The digits chosen for a binary number are the fewest that read back to it; of
several with that many digits the nearest is taken, and of two equally near ones
the even one. Everything is decided by exact arithmetic on naturals.
-/

namespace OperandStack.Number

/-- The number `digits * 10 ^ exponent`. -/
structure Decimal where
  /-- The digits, as one natural number. -/
  digits : Nat
  /-- The power of ten that the last digit stands for. -/
  exponent : Int
  deriving DecidableEq, Repr

/-- A quotient with a power of ten divided out, as numerator and denominator. -/
def unscaleByTen (num den : Nat) (e : Int) : Nat × Nat :=
  if 0 ≤ e then (num, den * 10 ^ e.toNat) else (num * 10 ^ (-e).toNat, den)

/-- The interval of reals that round to a number, in quarters of its unit in the last place, as
exact quotients over one denominator. -/
structure RoundingInterval where
  low : Nat
  value : Nat
  high : Nat
  den : Nat
  /-- Whether the ends round to the number too. -/
  closed : Bool
  deriving Repr

/-- The interval that rounds to `mantissa * 2 ^ exponent`. Below a power of two the gap is half as
wide, except at the smallest exponent. -/
def roundingInterval (f : BinaryFormat) (mantissa : Nat) (exponent : Int) : RoundingInterval :=
  let narrow := mantissa = 2 ^ f.fractionBits ∧ f.minExponent < exponent
  let low := 4 * mantissa - (if narrow then 1 else 2)
  let (unit, den) := scaleByTwo 1 1 (exponent - 2)
  ⟨low * unit, 4 * mantissa * unit, (4 * mantissa + 2) * unit, den, mantissa % 2 = 0⟩

/-- The greatest power of ten not above a positive quotient. -/
def decimalExponent (num den : Nat) : Int :=
  let binary : Int := (num.log2 : Int) - den.log2
  let guess : Int := (binary * 30103) / 100000 - 1
  let reached (e : Int) : Bool := let (n, d) := unscaleByTen num den e; d ≤ n
  if reached (guess + 2) then guess + 2
  else if reached (guess + 1) then guess + 1
  else if reached guess then guess
  else guess - 1

/-- The point of the grid of multiples of `10 ^ e` that reads back to the number, if there is one:
the nearer of the two neighbours of the value, if both do. -/
def gridPoint? (r : RoundingInterval) (e : Int) : Option Decimal :=
  let (value, den) := unscaleByTen r.value r.den e
  let (low, _) := unscaleByTen r.low r.den e
  let (high, _) := unscaleByTen r.high r.den e
  let below := value / den
  let above := below + 1
  let belowHits := if r.closed then low ≤ below * den else low < below * den
  let aboveHits := if r.closed then above * den ≤ high else above * den < high
  if belowHits ∧ aboveHits then some ⟨divNearest value den, e⟩
  else if belowHits then some ⟨below, e⟩
  else if aboveHits then some ⟨above, e⟩
  else none

/-- A decimal without trailing zeros in its digits. -/
def Decimal.trim (fuel : Nat) (d : Decimal) : Decimal :=
  match fuel with
  | 0 => d
  | fuel + 1 =>
    if d.digits ≠ 0 ∧ d.digits % 10 = 0 then trim fuel ⟨d.digits / 10, d.exponent + 1⟩ else d

/-- The most digits that a number of the 64-bit format needs. -/
def maxDigits : Nat := 17

/-- The shortest decimal that reads back to the positive number `mantissa * 2 ^ exponent`. -/
def shortest (f : BinaryFormat) (mantissa : Nat) (exponent : Int) : Decimal :=
  let r := roundingInterval f mantissa exponent
  let top := decimalExponent r.value r.den
  let found := (List.range maxDigits).findSome? fun (i : Nat) => gridPoint? r (top - i)
  (found.getD ⟨divNearest r.value r.den, 0⟩).trim (maxDigits + 1)

end OperandStack.Number
