/-!
# Hexadecimal text

Fixed-width lower-case digits of a number, and the two spellings of a byte
string: packed digit pairs, and pairs parted by blanks.
-/

namespace OperandStack.Text

/-- The lowest `width` hexadecimal digits of a number, most significant first. -/
def hexDigits : (width n : Nat) → List Char
  | 0, _ => []
  | width + 1, n => hexDigits width (n / 16) ++ [Nat.digitChar (n % 16)]

@[simp] theorem length_hexDigits (width n : Nat) : (hexDigits width n).length = width := by
  induction width generalizing n with
  | zero => rfl
  | succ width ih => simp [hexDigits, ih]

/-- A number as text of exactly `width` hexadecimal digits. -/
def hex (width n : Nat) : String := String.ofList (hexDigits width n)

/-- A byte as two digits. -/
def hexByte (b : UInt8) : String := hex 2 b.toNat

/-- A byte string as digit pairs without any separator. -/
def hexBytes (bytes : List UInt8) : String := String.join (bytes.map hexByte)

/-- A byte string as digit pairs with one blank between neighbours. -/
def spacedHexBytes (bytes : List UInt8) : String := " ".intercalate (bytes.map hexByte)

/-- The value of one hexadecimal digit of either case. -/
def hexValue? (c : Char) : Option Nat :=
  if '0' ≤ c ∧ c ≤ '9' then some (c.toNat - '0'.toNat)
  else if 'a' ≤ c ∧ c ≤ 'f' then some (c.toNat - 'a'.toNat + 10)
  else if 'A' ≤ c ∧ c ≤ 'F' then some (c.toNat - 'A'.toNat + 10)
  else none

/-- The value of a digit string read in hexadecimal; refuses any other character. -/
def ofHexDigits? (digits : List Char) : Option Nat :=
  digits.foldl (fun acc c => do return 16 * (← acc) + (← hexValue? c)) (some 0)

/-- The byte string spelled by packed digit pairs. -/
def ofHexBytes? : List Char → Option (List UInt8)
  | [] => some []
  | a :: b :: rest => do
    let high ← hexValue? a
    let low ← hexValue? b
    return UInt8.ofNat (16 * high + low) :: (← ofHexBytes? rest)
  | [_] => none

end OperandStack.Text
