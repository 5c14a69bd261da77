import OperandStack.Number.Operations
import OperandStack.Text.Quoted

/-!
# Templates

A template is a text with placeholders. A placeholder is a percent sign, flags, a
least width, a precision behind a point, and a letter: `%s` shows an argument plainly,
`%d` shows a number, `%q` quotes, `%v` shows any argument and `%%` is a percent sign.
Arguments are used up from the left, unless a number in brackets picks one. A
placeholder that does not suit its argument, a missing argument and a left-over
argument are reported in place.
-/

namespace OperandStack.Text

/-- An argument of a template. -/
inductive Argument where
  | text (s : String)
  | number (n : Int)
  deriving DecidableEq, Repr

namespace Argument

/-- The argument as it is shown without any decoration. -/
def plain : Argument → String
  | text s => s
  | number n => toString n

/-- The name of the sort of an argument, used where a placeholder does not suit it. -/
def sort : Argument → String
  | text _ => "string"
  | number _ => "int"

/-- An argument with its sort, the form used in reports. -/
def described (a : Argument) : String := a.sort ++ "=" ++ a.plain

end Argument

/-- How a placeholder lays out its argument. -/
structure Style where
  /-- Numbers show their base, and quotes are left out where they can be. -/
  alternate : Bool := false
  /-- Zeros instead of blanks fill up the width. -/
  zero : Bool := false
  /-- Numbers always have a sign, and quoted text has only the first 128 characters. -/
  plus : Bool := false
  /-- The width is filled up at the end. -/
  minus : Bool := false
  /-- A blank stands for the sign of a number, and parts bytes. -/
  space : Bool := false
  /-- Texts are quoted by the general letter. -/
  quoted : Bool := false
  width : Option Nat := none
  precision : Option Nat := none
  deriving DecidableEq, Repr

namespace Style

/-- What fills up a width. Zeros are put in front only. -/
def filling (st : Style) (count : Nat) : List Char :=
  List.replicate count (if st.zero && !st.minus then '0' else ' ')

/-- Characters filled up to the width. -/
def pad (st : Style) (cs : List Char) : List Char :=
  let missing := st.filling (st.width.getD 0 - cs.length)
  if st.minus then cs ++ missing else missing ++ cs

/-- Characters filled up to the width with blanks. -/
def padBlank (st : Style) (cs : List Char) : List Char := { st with zero := false }.pad cs

/-- The number of digits that a number has at least. Without a precision, zeros that fill up the
width count as digits. -/
def leastDigits (st : Style) (n : Int) : Nat :=
  match st.precision, st.width with
  | some p, _ => p
  | none, some w =>
    if !st.zero || st.minus then 0
    else if n < 0 ∨ st.plus ∨ st.space then w - 1 else w
  | none, none => 0

/-- The mark of a base in front of digits. -/
def baseMark (st : Style) (base : Nat) (upper : Bool) (digits : List Char) : List Char :=
  if !st.alternate then []
  else match base with
    | 2 => ['0', 'b']
    | 8 => if digits.head? = some '0' then [] else ['0']
    | 16 => ['0', if upper then 'X' else 'x']
    | _ => []

/-- A number in a base. A precision of zero shows nothing for zero. -/
def number (st : Style) (base : Nat) (upper marked : Bool) (n : Int) : List Char :=
  if st.precision = some 0 ∧ n = 0 then st.padBlank []
  else
    let digits := Nat.toDigits base n.natAbs
    let digits := if upper then digits.map Char.toUpper else digits
    let digits := List.replicate (st.leastDigits n - digits.length) '0' ++ digits
    let digits := st.baseMark base upper digits ++ digits
    let digits := if marked then '0' :: 'o' :: digits else digits
    let sign := if n < 0 then ['-'] else if st.plus then ['+'] else if st.space then [' '] else []
    st.padBlank (sign ++ digits)

/-- The character of a code point; a code point that is none has a stand-in. -/
def charOf (n : Int) : Char :=
  if 0 ≤ n ∧ n.toNat.isValidChar then Char.ofNat n.toNat else '�'

/-- A character as it stands inside quotes of a text or of a character. -/
def quotedChar (st : Style) (mark c : Char) : List Char :=
  if c = mark then ['\\', c]
  else if c = '"' then [c]
  else if st.plus ∧ 0x80 ≤ c.toNat then escapeCode c
  else quoteChar c

/-- A number shown as the quoted character of that code point. -/
def quotedNumber (st : Style) (n : Int) : List Char :=
  st.pad ('\'' :: (st.quotedChar '\'' (charOf n) ++ ['\'']))

/-- A number shown as a code point in the usual form. -/
def codePoint (st : Style) (n : Int) : List Char :=
  let code := if n < 0 then (2 ^ 64 + n).toNat else n.toNat
  let digits := (Nat.toDigits 16 code).map Char.toUpper
  let zeros := List.replicate (max 4 (st.precision.getD 0) - digits.length) '0'
  let shown :=
    if st.alternate ∧ code.isValidChar ∧ isPrintable (Char.ofNat code) then
      [' ', '\'', Char.ofNat code, '\'']
    else []
  st.padBlank ('U' :: '+' :: (zeros ++ digits ++ shown))

/-- The characters of a text that the precision leaves. -/
def cut (st : Style) (s : String) : List Char :=
  match st.precision with
  | some p => s.toList.take p
  | none => s.toList

/-- Whether a text can stand between back quotes as it is. -/
def isRaw (cs : List Char) : Bool :=
  cs.all fun c =>
    c = '\t' || (0x20 ≤ c.toNat && c.toNat ≠ 0x60 && c.toNat ≠ 0x7f && c.toNat ≠ 0xfeff)

/-- A quoted text. -/
def quotedText (st : Style) (s : String) : List Char :=
  let cs := st.cut s
  if st.alternate && isRaw cs then st.pad ('\x60' :: (cs ++ ['\x60']))
  else st.pad ('"' :: (cs.flatMap (st.quotedChar '"') ++ ['"']))

/-- The bytes of a text as hexadecimal digits. A precision counts bytes. -/
def bytes (st : Style) (upper : Bool) (s : String) : List Char :=
  let all := s.toUTF8.toList
  let shown := match st.precision with
    | some p => all.take p
    | none => all
  let mark := if st.alternate then ['0', if upper then 'X' else 'x'] else []
  let pair (b : UInt8) : List Char :=
    let digits := hexDigits 2 b.toNat
    if upper then digits.map Char.toUpper else digits
  match shown with
  | [] => st.filling (st.width.getD 0)
  | first :: rest =>
    let parted := if st.space then ' ' :: mark else []
    st.pad (mark ++ pair first ++ rest.flatMap fun b => parted ++ pair b)

/-- An argument shown by a letter, if the letter suits it. -/
def display? (st : Style) (letter : Char) : Argument → Option (List Char)
  | .text s =>
    match letter with
    | 'v' => some (if st.quoted then st.quotedText s else st.pad (st.cut s))
    | 's' => some (st.pad (st.cut s))
    | 'x' => some (st.bytes false s)
    | 'X' => some (st.bytes true s)
    | 'q' => some (st.quotedText s)
    | 'T' => some (st.pad (st.cut "string"))
    | _ => none
  | .number n =>
    match letter with
    | 'v' => some (st.number 10 false false n)
    | 'd' => some (st.number 10 false false n)
    | 'b' => some (st.number 2 false false n)
    | 'o' => some (st.number 8 false false n)
    | 'O' => some (st.number 8 false true n)
    | 'x' => some (st.number 16 false false n)
    | 'X' => some (st.number 16 true false n)
    | 'c' => some (st.pad [charOf n])
    | 'q' => some (st.quotedNumber n)
    | 'U' => some (st.codePoint n)
    | 'T' => some (st.pad (st.cut "int"))
    | _ => none

/-- An argument shown by a letter. A letter that does not suit it is reported with the argument. -/
def display (st : Style) (letter : Char) (a : Argument) : List Char :=
  let st :=
    if letter = 'v' ∨ letter = 'w' then
      { st with quoted := st.alternate, alternate := false, plus := false }
    else st
  match st.display? letter a with
  | some cs => cs
  | none =>
    '%' :: '!' :: letter :: '(' ::
      (a.sort.toList ++ '=' :: ((st.display? 'v' a).getD [] ++ [')']))

end Style

/-- Flags at the front of a text. -/
def readFlags (st : Style) : List Char → Style × List Char
  | '#' :: cs => readFlags { st with alternate := true } cs
  | '0' :: cs => readFlags { st with zero := true } cs
  | '+' :: cs => readFlags { st with plus := true } cs
  | '-' :: cs => readFlags { st with minus := true } cs
  | ' ' :: cs => readFlags { st with space := true } cs
  | cs => (st, cs)

/-- The greatest number that may still be followed by a digit. -/
def greatestCount : Nat := 1000000

/-- A number at the front of a text. A number that is far too large uses up all of the text. -/
def readCount (cs : List Char) : Option Nat × List Char :=
  let rec go (n : Option Nat) : List Char → Option Nat × List Char
    | [] => (n, [])
    | c :: rest =>
      if !c.isDigit then (n, c :: rest)
      else if greatestCount < n.getD 0 then (none, [])
      else go (some (10 * n.getD 0 + (c.toNat - '0'.toNat))) rest
  go none cs

/-- Which argument comes next, and whether the numbers in brackets are sound. -/
structure Selection where
  next : Nat := 0
  isSound : Bool := true
  /-- Whether any argument was picked by a number. -/
  reordered : Bool := false
  deriving DecidableEq, Repr

namespace Selection

/-- A number in brackets at the front of a text, with whether there is a number. -/
def pick (count : Nat) (s : Selection) (cs : List Char) : Selection × List Char × Bool :=
  match cs with
  | '[' :: rest =>
    let s := { s with reordered := true }
    if rest.length < 2 ∨ !rest.contains ']' then ({ s with isSound := false }, rest, false)
    else
      let inside := rest.takeWhile (· ≠ ']')
      let after := rest.drop (inside.length + 1)
      match readCount inside with
      | (some n, []) =>
        if 1 ≤ n ∧ n ≤ count then ({ s with next := n - 1 }, after, true)
        else ({ s with isSound := false }, after, true)
      | _ => ({ s with isSound := false }, after, false)
  | cs => (s, cs, false)

/-- The next argument as a number for a width or a precision. -/
def takeCount (args : List Argument) (s : Selection) : Option Int × Selection :=
  match args[s.next]? with
  | none => (none, s)
  | some (.number n) =>
    (if n.natAbs ≤ greatestCount then some n else none, { s with next := s.next + 1 })
  | some (.text _) => (none, { s with next := s.next + 1 })

end Selection

/-- A placeholder that is read in part. -/
structure Placeholder where
  style : Style
  selection : Selection
  /-- Whether a number in brackets came last. -/
  picked : Bool
  /-- What is reported before the argument. -/
  report : List Char
  rest : List Char

namespace Placeholder

/-- Reads a number in brackets. -/
def readPick (args : List Argument) (p : Placeholder) : Placeholder :=
  let (selection, rest, picked) := p.selection.pick args.length p.rest
  { p with selection, rest, picked }

/-- Reads a width: digits, or a star for the next argument. A negative argument fills up at the
end. -/
def readWidth (args : List Argument) (p : Placeholder) : Placeholder :=
  match p.rest with
  | '*' :: rest =>
    let (n, selection) := p.selection.takeCount args
    let style := match n with
      | none => p.style
      | some n =>
        if n < 0 then { p.style with width := some n.natAbs, minus := true, zero := false }
        else { p.style with width := some n.natAbs }
    let report := if n.isNone then p.report ++ "%!(BADWIDTH)".toList else p.report
    { p with style, selection, report, rest, picked := false }
  | cs =>
    let (width, rest) := readCount cs
    let isSound := p.selection.isSound && !(p.picked && width.isSome)
    { p with style := { p.style with width }, selection := { p.selection with isSound }, rest }

/-- Reads a precision behind a point: digits, or a star for the next argument. A point at the end of
the template is no such point. -/
def readPrecision (args : List Argument) (p : Placeholder) : Placeholder :=
  match p.rest with
  | '.' :: next :: rest =>
    let rest := next :: rest
    let isSound := p.selection.isSound && !p.picked
    let p := { p with selection := { p.selection with isSound }, rest }.readPick args
    match p.rest with
    | '*' :: rest =>
      let (n, selection) := p.selection.takeCount args
      let precision := match n with
        | some n => if n < 0 then none else some n.toNat
        | none => none
      let report := if precision.isNone then p.report ++ "%!(BADPREC)".toList else p.report
      { p with style := { p.style with precision }, selection, report, rest, picked := false }
    | cs =>
      let (precision, rest) := readCount cs
      { p with style := { p.style with precision := some (precision.getD 0) }, rest }
  | _ => p

/-- Reads all that stands before the letter. -/
def read (args : List Argument) (selection : Selection) (cs : List Char) : Placeholder :=
  let (style, rest) := readFlags {} cs
  let p : Placeholder := ⟨style, { selection with isSound := true }, false, [], rest⟩
  let p := ((p.readPick args).readWidth args).readPrecision args
  if p.picked then p else p.readPick args

/-- What a placeholder with a letter shows, and which argument comes after it. -/
def display (args : List Argument) (p : Placeholder) (letter : Char) : List Char × Selection :=
  let next := { p.selection with next := p.selection.next + 1 }
  if letter = '%' then (['%'], p.selection)
  else if !p.selection.isSound then ('%' :: '!' :: letter :: "(BADINDEX)".toList, p.selection)
  else match args[p.selection.next]? with
    | none => ('%' :: '!' :: letter :: "(MISSING)".toList, p.selection)
    | some a => (p.style.display letter a, next)

end Placeholder

/-- The report of arguments that no placeholder used. -/
def leftOver (args : List Argument) (s : Selection) : List Char :=
  let rest := args.drop s.next
  if s.reordered || rest.isEmpty then []
  else ("%!(EXTRA " ++ ", ".intercalate (rest.map Argument.described) ++ ")").toList

/-- Fills the placeholders of a text. Every step takes a character at least, so `fuel` is enough if
it is longer than the text. -/
def fillChars (args : List Argument) (fuel : Nat) (s : Selection) (cs : List Char) : List Char :=
  match fuel, cs with
  | 0, _ => []
  | _, [] => leftOver args s
  | fuel + 1, '%' :: cs =>
    let p := Placeholder.read args s cs
    match p.rest with
    | [] => p.report ++ "%!(NOVERB)".toList ++ leftOver args p.selection
    | letter :: rest =>
      let (shown, s) := p.display args letter
      p.report ++ shown ++ fillChars args fuel s rest
  | fuel + 1, c :: cs => c :: fillChars args fuel s cs

/-- A template with its placeholders filled. Without arguments the text is taken as it stands. -/
def fill (template : String) (args : List Argument) : String :=
  if args.isEmpty then template
  else String.ofList (fillChars args (template.length + 1) {} template.toList)

end OperandStack.Text
