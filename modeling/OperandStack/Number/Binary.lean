import OperandStack.Number.Operations

/-!
# Binary floating-point formats

A bit pattern of a format denotes a signed multiple of a power of two, an
infinity or no number. Rounding goes the other way: an exact quotient becomes
the nearest pattern, and an exact half goes to the even one.
-/

namespace OperandStack.Number

/-- A binary interchange format: a sign bit, exponent bits and fraction bits. -/
structure BinaryFormat where
  /-- Width of the stored fraction. -/
  fractionBits : Nat
  /-- Width of the biased exponent. -/
  exponentBits : Nat
  deriving DecidableEq, Repr

namespace BinaryFormat

/-- The 32-bit format. -/
def single : BinaryFormat := ⟨23, 8⟩

/-- The 64-bit format. -/
def double : BinaryFormat := ⟨52, 11⟩

/-- The offset of the stored exponent. -/
def bias (f : BinaryFormat) : Nat := 2 ^ (f.exponentBits - 1) - 1

/-- The power of two that one unit of the smallest numbers stands for. -/
def minExponent (f : BinaryFormat) : Int := 1 - (f.bias : Int) - f.fractionBits

/-- The exponent field shared by the infinities and the patterns that are no number. -/
def topExponent (f : BinaryFormat) : Nat := 2 ^ f.exponentBits - 1

/-- The pattern of an infinity. -/
def infinity (f : BinaryFormat) : Nat := f.topExponent * 2 ^ f.fractionBits

/-- The sign bit as a number. -/
def signBit (f : BinaryFormat) : Nat := 2 ^ (f.fractionBits + f.exponentBits)

end BinaryFormat

/-- What a bit pattern denotes. -/
inductive Reading where
  /-- Not a number. -/
  | undefined
  /-- An infinity of either sign. -/
  | infinite (negative : Bool)
  /-- The number `mantissa * 2 ^ exponent` with a sign, which zero has too. -/
  | finite (negative : Bool) (mantissa : Nat) (exponent : Int)
  deriving DecidableEq, Repr

/-- The reading of a bit pattern. -/
def BinaryFormat.read (f : BinaryFormat) (bits : Nat) : Reading :=
  let fraction := bits % 2 ^ f.fractionBits
  let field := bits / 2 ^ f.fractionBits % 2 ^ f.exponentBits
  let negative := bits / f.signBit % 2 = 1
  if field = f.topExponent then
    if fraction = 0 then .infinite negative else .undefined
  else if field = 0 then .finite negative fraction f.minExponent
  else .finite negative (2 ^ f.fractionBits + fraction) (f.minExponent + field - 1)

/-- The quotient rounded to the nearest natural number, an exact half to the even one. -/
def divNearest (num den : Nat) : Nat :=
  let q := num / den
  let twice := 2 * (num % den)
  if twice < den then q
  else if den < twice then q + 1
  else q + q % 2

/-- A quotient with a power of two multiplied in, as numerator and denominator. -/
def scaleByTwo (num den : Nat) (e : Int) : Nat × Nat :=
  if 0 ≤ e then (num * 2 ^ e.toNat, den) else (num, den * 2 ^ (-e).toNat)

/-- The nearest pattern to a positive quotient, or `none` past the greatest finite number. -/
def BinaryFormat.round? (f : BinaryFormat) (num den : Nat) : Option Nat :=
  if num = 0 then some 0 else
  let guess : Int := (num.log2 : Int) - den.log2 - f.fractionBits
  let (n, d) := scaleByTwo num den (-guess)
  let exponent := max f.minExponent (if n / d < 2 ^ f.fractionBits then guess - 1 else guess)
  let (n, d) := scaleByTwo num den (-exponent)
  let mantissa := divNearest n d
  let bits :=
    if mantissa < 2 ^ f.fractionBits then mantissa
    else (exponent - f.minExponent).toNat * 2 ^ f.fractionBits + mantissa
  if bits < f.infinity then some bits else none

/-- The nearest pattern to a positive quotient; too large a quotient gives the infinity. -/
def BinaryFormat.round (f : BinaryFormat) (num den : Nat) : Nat :=
  (f.round? num den).getD f.infinity

/-- The pattern of a format nearest to what a pattern of another format denotes. A pattern that is
no number keeps the leading bits of its fraction and is marked quiet. -/
def BinaryFormat.convert (source target : BinaryFormat) (bits : Nat) : Nat :=
  let sign := if bits / source.signBit % 2 = 1 then target.signBit else 0
  match source.read bits with
  | .undefined =>
    let fraction := bits % 2 ^ source.fractionBits
    let kept :=
      if target.fractionBits ≤ source.fractionBits then
        fraction / 2 ^ (source.fractionBits - target.fractionBits)
      else fraction * 2 ^ (target.fractionBits - source.fractionBits)
    let quiet := 2 ^ (target.fractionBits - 1)
    sign + target.infinity + (if kept < quiet then kept + quiet else kept)
  | .infinite _ => sign + target.infinity
  | .finite _ mantissa exponent =>
    let (n, d) := scaleByTwo mantissa 1 exponent
    sign + target.round n d

/-- The 64-bit pattern nearest to an integer. -/
def doubleOfInt (i : Int) : UInt64 :=
  let sign := if i < 0 then BinaryFormat.double.signBit else 0
  UInt64.ofNat (sign + BinaryFormat.double.round i.natAbs 1)

/-- The 32-bit pattern nearest to a 64-bit one. -/
def singleOfDouble (bits : UInt64) : UInt32 :=
  UInt32.ofNat (BinaryFormat.convert .double .single bits.toNat)

end OperandStack.Number
