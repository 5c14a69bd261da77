import OperandStack.Number.Shortest

/-!
# Written floating-point numbers

A number is written with its shortest digits. Numbers from a ten-thousandth up to
a million are positional; all others have an exponent with a sign and at least
two digits. Zero keeps its sign.
-/

namespace OperandStack.Number

/-- The decisions of a floating-point style. -/
structure Style where
  /-- The least decimal exponent that is written positionally. -/
  leastPositional : Int
  /-- The least decimal exponent above the positional ones. -/
  firstExponential : Int
  /-- The least number of digits in an exponent. -/
  exponentWidth : Nat
  /-- The text of a pattern that is no number. -/
  undefinedText : String
  /-- The text of the positive infinity. -/
  infinityText : String
  /-- The text of the negative infinity. -/
  negativeInfinityText : String

/-- The style of literals and of values in messages. -/
def general : Style where
  leastPositional := -4
  firstExponential := 6
  exponentWidth := 2
  undefinedText := "NaN"
  infinityText := "+Inf"
  negativeInfinityText := "-Inf"

/-- A text with zeros put in front up to a width. -/
def padZeros (width : Nat) (digits : List Char) : List Char :=
  List.replicate (width - digits.length) '0' ++ digits

/-- Digits with a point after the first one, if more follow. -/
def pointAfterFirst : List Char → List Char
  | [] => []
  | [d] => [d]
  | d :: rest => d :: '.' :: rest

/-- Digits at their places around the point; `whole` digits stand before it. -/
def positional (digits : List Char) (whole : Int) : List Char :=
  if whole ≤ 0 then '0' :: '.' :: (List.replicate (-whole).toNat '0' ++ digits)
  else if digits.length ≤ whole.toNat then
    digits ++ List.replicate (whole.toNat - digits.length) '0'
  else digits.take whole.toNat ++ '.' :: digits.drop whole.toNat

/-- An exponent with its sign and at least the style's number of digits. -/
def Style.exponentText (n : Style) (e : Int) : List Char :=
  (if e < 0 then '-' else '+') :: padZeros n.exponentWidth (Nat.toDigits 10 e.natAbs)

/-- A positive decimal in a style. -/
def Style.decimalText (n : Style) (d : Decimal) : List Char :=
  let digits := Nat.toDigits 10 d.digits
  let e := d.exponent + digits.length - 1
  if n.leastPositional ≤ e ∧ e < n.firstExponential then positional digits (e + 1)
  else pointAfterFirst digits ++ 'e' :: n.exponentText e

/-- The text of a bit pattern. -/
def Style.text (n : Style) (f : BinaryFormat) (bits : Nat) : String :=
  match f.read bits with
  | .undefined => n.undefinedText
  | .infinite false => n.infinityText
  | .infinite true => n.negativeInfinityText
  | .finite negative mantissa exponent =>
    let magnitude := if mantissa = 0 then ['0'] else n.decimalText (shortest f mantissa exponent)
    String.ofList (if negative then '-' :: magnitude else magnitude)

/-- The text of a 32-bit pattern. -/
def singleText (bits : UInt32) : String := general.text .single bits.toNat

/-- The text of a 64-bit pattern. -/
def doubleText (bits : UInt64) : String := general.text .double bits.toNat

end OperandStack.Number
