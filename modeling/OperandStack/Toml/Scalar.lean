import OperandStack.Toml.Value

/-!
# Scalars

Readers for strings, numbers, truth values and moments at the front of a text. A
reader gives the value and the rest, or nothing.
-/

namespace OperandStack.Toml

/-- Whether a character is a blank inside a line. -/
def isBlank (c : Char) : Bool := c = ' ' || c = '\t'

/-- Whether a character ends a line or belongs to its end. -/
def isLineEnd (c : Char) : Bool := c = '\n' || c = '\r'

/-- The character that a short escape stands for. -/
def shortEscape? : Char → Option Char
  | 'b' => some '\x08'
  | 't' => some '\t'
  | 'n' => some '\n'
  | 'f' => some '\x0c'
  | 'r' => some '\r'
  | 'e' => some '\x1b'
  | '"' => some '"'
  | '\\' => some '\\'
  | _ => none

/-- The character that hexadecimal digits stand for. -/
def codePoint? (digits : List Char) : Option Char := do
  let n ← Text.ofHexDigits? digits
  if n.isValidChar then some (Char.ofNat n) else none

/-- Resolves the escapes of a text. -/
def unescape : List Char → Option (List Char)
  | [] => some []
  | '\\' :: 'x' :: a :: b :: rest => do
    let char ← codePoint? [a, b]
    return char :: (← unescape rest)
  | '\\' :: 'u' :: a :: b :: c :: d :: rest => do
    let char ← codePoint? [a, b, c, d]
    return char :: (← unescape rest)
  | '\\' :: 'U' :: a :: b :: c :: d :: e :: f :: g :: h :: rest => do
    let char ← codePoint? [a, b, c, d, e, f, g, h]
    return char :: (← unescape rest)
  | '\\' :: c :: rest => do
    let char ← shortEscape? c
    return char :: (← unescape rest)
  | ['\\'] => none
  | c :: rest => do return c :: (← unescape rest)

/-- The inside of a string up to its closing quote, and the text behind the quote. Escapes are
kept. -/
def spanQuoted : List Char → Option (List Char × List Char)
  | [] => none
  | '"' :: rest => some ([], rest)
  | '\\' :: c :: rest => do
    if isLineEnd c then none
    else
      let (inside, rest) ← spanQuoted rest
      return ('\\' :: c :: inside, rest)
  | c :: rest => do
    if isLineEnd c then none
    else
      let (inside, rest) ← spanQuoted rest
      return (c :: inside, rest)

/-- The inside of a literal string up to its closing quote, and the text behind it. -/
def spanLiteral : List Char → Option (List Char × List Char)
  | [] => none
  | '\'' :: rest => some ([], rest)
  | c :: rest => do
    if isLineEnd c then none
    else
      let (inside, rest) ← spanLiteral rest
      return (c :: inside, rest)

/-- The inside of a string of several lines. Up to two quotes may stand before the three that
close it, and up to three if an escaped backslash stands before these. -/
def spanLines (quote : Char) (escapes : Bool) :
    (afterBackslash : Bool) → List Char → Option (List Char × List Char)
  | _, [] => none
  | _, [_] => none
  | afterBackslash, c :: d :: rest =>
    if escapes ∧ c = '\\' then do
      let (inside, after) ← spanLines quote escapes (d = '\\') rest
      return (c :: d :: inside, after)
    else if c = quote ∧ d = quote ∧ rest.head? = some quote then
      let extra := (rest.takeWhile (· = quote)).length - 1
      if extra ≤ 2 ∨ (extra = 3 ∧ afterBackslash) then
        some (List.replicate extra quote, rest.drop (extra + 1))
      else none
    else do
      let (inside, after) ← spanLines quote escapes false (d :: rest)
      return (c :: inside, after)

/-- A text without a line end at its front. -/
def dropFirstLineEnd : List Char → List Char
  | '\n' :: rest => rest
  | '\r' :: '\n' :: rest => rest
  | cs => cs

/-- Whether a character is a blank or belongs to a line end. -/
def isGap (c : Char) : Bool := isBlank c || isLineEnd c

/-- Joins lines: a backslash at the end of a line removes the line end and all blanks after it.
While `skipping`, blanks and line ends are removed. -/
def joinLines : (skipping : Bool) → List Char → List Char
  | _, [] => []
  | skipping, c :: rest =>
    if skipping && isGap c then joinLines true rest
    else if c ≠ '\\' then c :: joinLines false rest
    else match rest with
      | [] => [c]
      | d :: after =>
        if d = '\\' then c :: d :: joinLines false after
        else if ((d :: after).takeWhile isGap).contains '\n' then joinLines true (d :: after)
        else c :: joinLines false (d :: after)

/-- A string of any of the four forms. -/
def readString : List Char → Option (String × List Char)
  | '"' :: '"' :: '"' :: rest => do
    let (inside, rest) ← spanLines '"' true false rest
    return (String.ofList (← unescape (joinLines false (dropFirstLineEnd inside))), rest)
  | '\'' :: '\'' :: '\'' :: rest => do
    let (inside, rest) ← spanLines '\'' false false rest
    return (String.ofList (dropFirstLineEnd inside), rest)
  | '"' :: rest => do
    let (inside, rest) ← spanQuoted rest
    return (String.ofList (← unescape inside), rest)
  | '\'' :: rest => do
    let (inside, rest) ← spanLiteral rest
    return (String.ofList inside, rest)
  | _ => none

/-- The value of a digit in any base up to sixteen. -/
def digitValue? (base : Nat) (c : Char) : Option Nat := do
  let v ← Text.hexValue? c
  if v < base then some v else none

/-- The value of a digit string in which single underscores may part digits. -/
def digitsValue? (base : Nat) (cs : List Char) : Option Nat :=
  let rec go (afterDigit : Bool) (n : Nat) : List Char → Option Nat
    | [] => if afterDigit then some n else none
    | '_' :: rest => if afterDigit then go false n rest else none
    | c :: rest => do go true (base * n + (← digitValue? base c)) rest
  go false 0 cs

/-- A sign at the front of a text, and whether it is a minus. -/
def splitSign : List Char → Bool × List Char
  | '-' :: rest => (true, rest)
  | '+' :: rest => (false, rest)
  | cs => (false, cs)

/-- A signed magnitude as an integer of 64 bits. -/
def signed (negative : Bool) (n : Nat) : Option Value :=
  let i : Int := if negative then -n else n
  if -9223372036854775808 ≤ i ∧ i ≤ 9223372036854775807 then some (.integer (Int64.ofInt i))
  else none

/-- Whether decimal digits start with a zero they do not need. -/
def hasIdleZero (cs : List Char) : Bool := cs.head? = some '0' && 1 < cs.length

/-- A whole text as an integer. -/
def integer? (cs : List Char) : Option Value :=
  match cs with
  | '0' :: 'x' :: digits => do signed false (← digitsValue? 16 digits)
  | '0' :: 'o' :: digits => do signed false (← digitsValue? 8 digits)
  | '0' :: 'b' :: digits => do signed false (← digitsValue? 2 digits)
  | cs =>
    let (negative, digits) := splitSign cs
    if hasIdleZero digits then none else do signed negative (← digitsValue? 10 digits)

/-- The 64-bit pattern nearest to `digits * 10 ^ exponent`; nothing past the greatest number.
Exponents out of all proportion are settled without arithmetic. -/
def decimalBits? (digits : Nat) (exponent : Int) : Option Nat :=
  let magnitude := exponent + (Nat.toDigits 10 digits).length
  if digits = 0 then some 0
  else if 400 < magnitude then none
  else if magnitude < -400 then some 0
  else if 0 ≤ exponent then Number.BinaryFormat.double.round? (digits * 10 ^ exponent.toNat) 1
  else Number.BinaryFormat.double.round? digits (10 ^ (-exponent).toNat)

/-- A decimal number in parts: whole digits, digits behind the point, and the exponent. -/
def floatParts? (cs : List Char) : Option (List Char × List Char × Int) := do
  let isMark (c : Char) : Bool := c = 'e' || c = 'E'
  let mantissa := cs.takeWhile fun c => !isMark c
  let exponent ← match cs.dropWhile fun c => !isMark c with
    | [] => some 0
    | _ :: rest =>
      let (negative, digits) := splitSign rest
      (digitsValue? 10 digits).map fun n => if negative then -(n : Int) else n
  let whole := mantissa.takeWhile (· ≠ '.')
  match mantissa.dropWhile (· ≠ '.') with
  | [] => return (whole, [], exponent)
  | _ :: fraction =>
    if fraction.isEmpty then none
    else
      let _ ← digitsValue? 10 fraction
      return (whole, fraction, exponent)

/-- A whole text as a floating-point number. -/
def float? (cs : List Char) : Option Value := do
  let (negative, magnitude) := splitSign cs
  let sign := if negative then Number.BinaryFormat.double.signBit else 0
  let bits ← match magnitude with
    | ['i', 'n', 'f'] => some Number.BinaryFormat.double.infinity
    | ['n', 'a', 'n'] => some 0x7ff8000000000001
    | _ => do
      let (whole, fraction, exponent) ← floatParts? magnitude
      if hasIdleZero whole then none
      else
        let _ ← digitsValue? 10 whole
        let digits := (whole ++ fraction).filter (· ≠ '_')
        let places := (fraction.filter (· ≠ '_')).length
        let n ← digitsValue? 10 digits
        decimalBits? n (exponent - places)
  return .float (UInt64.ofNat (sign + bits))

/-- Whether a character may stand in a moment. -/
def isMomentChar (c : Char) : Bool := c.isDigit || "-:Tt .Zz+".toList.contains c

/-- A number or moment at the front of a text. A run of digits followed by a dash or a colon
starts a moment; a point or an exponent makes a floating-point number. -/
def readNumber (cs : List Char) : Option (Value × List Char) :=
  let digits := cs.takeWhile Char.isDigit
  let next := (cs.drop digits.length).head?
  if 2 ≤ digits.length ∧ (next = some '-' ∨ next = some ':') then do
    let run := cs.takeWhile isMomentChar
    let trimmed := (run.reverse.dropWhile isBlank).reverse
    let m ← Moment.ofChars? trimmed
    return (.moment m, cs.drop run.length)
  else
    let based := match cs with
      | '0' :: b :: _ => b = 'x' || b = 'o' || b = 'b'
      | _ => false
    let isPart (c : Char) : Bool := c.isDigit || c = '_'
    if based then
      let run := cs.take 2 ++ (cs.drop 2).takeWhile fun c => (Text.hexValue? c).isSome || c = '_'
      do return (← integer? run, cs.drop run.length)
    else
      let (_, unsigned) := splitSign cs
      let signLength := if cs.head? = some '-' ∨ cs.head? = some '+' then 1 else 0
      let whole := unsigned.takeWhile isPart
      let isFloat := match (unsigned.drop whole.length).head? with
        | some c => c = '.' || c = 'e' || c = 'E'
        | none => false
      if isFloat then
        let run := cs.take signLength ++ unsigned.takeWhile fun c =>
          isPart c || c = '.' || c = 'e' || c = 'E' || c = '+' || c = '-'
        do return (← float? run, cs.drop run.length)
      else
        let run := cs.take (signLength + whole.length)
        do return (← integer? run, cs.drop run.length)

/-- A value other than an array or a table at the front of a text. -/
def readScalar (cs : List Char) : Option (Value × List Char) :=
  match cs with
  | '"' :: _ => do let (s, rest) ← readString cs; return (.string s, rest)
  | '\'' :: _ => do let (s, rest) ← readString cs; return (.string s, rest)
  | 't' :: 'r' :: 'u' :: 'e' :: rest => some (.boolean true, rest)
  | 'f' :: 'a' :: 'l' :: 's' :: 'e' :: rest => some (.boolean false, rest)
  | 'i' :: 'n' :: 'f' :: rest => do return (← float? (cs.take 3), rest)
  | 'n' :: 'a' :: 'n' :: rest => do return (← float? (cs.take 3), rest)
  | '+' :: 'i' :: 'n' :: 'f' :: rest => do return (← float? (cs.take 4), rest)
  | '-' :: 'i' :: 'n' :: 'f' :: rest => do return (← float? (cs.take 4), rest)
  | '+' :: 'n' :: 'a' :: 'n' :: rest => do return (← float? (cs.take 4), rest)
  | '-' :: 'n' :: 'a' :: 'n' :: rest => do return (← float? (cs.take 4), rest)
  | c :: _ => if c.isDigit || c = '+' || c = '-' then readNumber cs else none
  | [] => none

end OperandStack.Toml
