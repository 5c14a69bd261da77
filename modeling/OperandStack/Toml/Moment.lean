import OperandStack.Number.Layout

/-!
# Dates and times

A moment is a date with a time and an offset, or has no offset, no time or no
date. Dates follow the calendar; fractions of a second keep nine digits.
-/

namespace OperandStack.Toml

/-- A day of the calendar. -/
structure Date where
  year : Nat
  month : Nat
  day : Nat
  deriving DecidableEq, Repr

/-- A time of day. -/
structure Time where
  hour : Nat
  minute : Nat
  second : Nat
  /-- Billionths of a second. -/
  nanosecond : Nat
  deriving DecidableEq, Repr

/-- A date, a time, or both. -/
inductive Moment where
  /-- A date and time so many minutes ahead of universal time. -/
  | offsetDateTime (date : Date) (time : Time) (offset : Int)
  | localDateTime (date : Date) (time : Time)
  | localDate (date : Date)
  | localTime (time : Time)
  deriving DecidableEq, Repr

namespace Date

/-- Whether a year has a leap day. -/
def isLeapYear (year : Nat) : Bool :=
  year % 4 = 0 && (year % 100 ≠ 0 || year % 400 = 0)

/-- The number of days of a month. -/
def daysIn (year month : Nat) : Nat :=
  match month with
  | 2 => if isLeapYear year then 29 else 28
  | 4 => 30
  | 6 => 30
  | 9 => 30
  | 11 => 30
  | _ => 31

/-- Whether the calendar has the day. -/
def isValid (d : Date) : Bool :=
  1 ≤ d.month && d.month ≤ 12 && 1 ≤ d.day && d.day ≤ daysIn d.year d.month

end Date

/-- Whether the day has the time. -/
def Time.isValid (t : Time) : Bool := t.hour < 24 && t.minute < 60 && t.second < 60

/-- A number of exactly `width` digits at the front of a text. -/
def readDigits (width : Nat) (cs : List Char) : Option (Nat × List Char) :=
  let digits := cs.take width
  if digits.length = width ∧ digits.all Char.isDigit then
    some (digits.foldl (fun n c => 10 * n + (c.toNat - '0'.toNat)) 0, cs.drop width)
  else none

/-- The rest of a text behind a character. -/
def readChar (c : Char) : List Char → Option (List Char)
  | d :: rest => if c = d then some rest else none
  | [] => none

/-- A date at the front of a text. -/
def readDate (cs : List Char) : Option (Date × List Char) := do
  let (year, cs) ← readDigits 4 cs
  let cs ← readChar '-' cs
  let (month, cs) ← readDigits 2 cs
  let cs ← readChar '-' cs
  let (day, cs) ← readDigits 2 cs
  let date : Date := ⟨year, month, day⟩
  if date.isValid then some (date, cs) else none

/-- A fraction of a second at the front of a text, in billionths. Further digits are dropped. -/
def readFraction : List Char → Option (Nat × List Char)
  | '.' :: cs =>
    let digits := cs.takeWhile Char.isDigit
    if digits.isEmpty then none
    else
      let kept := digits.take 9
      let value := kept.foldl (fun n c => 10 * n + (c.toNat - '0'.toNat)) 0
      some (value * 10 ^ (9 - kept.length), cs.dropWhile Char.isDigit)
  | cs => some (0, cs)

/-- Seconds behind the minutes at the front of a text. They may be left out. -/
def readSeconds : List Char → Option (Nat × Nat × List Char)
  | ':' :: cs => do
    let (second, cs) ← readDigits 2 cs
    let (nanosecond, cs) ← readFraction cs
    return (second, nanosecond, cs)
  | cs => some (0, 0, cs)

/-- A time at the front of a text. -/
def readTime (cs : List Char) : Option (Time × List Char) := do
  let (hour, cs) ← readDigits 2 cs
  let cs ← readChar ':' cs
  let (minute, cs) ← readDigits 2 cs
  let (second, nanosecond, cs) ← readSeconds cs
  let time : Time := ⟨hour, minute, second, nanosecond⟩
  if time.isValid then some (time, cs) else none

/-- A whole text as an offset from universal time in minutes. -/
def readOffset : List Char → Option Int
  | ['Z'] => some 0
  | sign :: cs => do
    let (hours, cs) ← readDigits 2 cs
    let cs ← readChar ':' cs
    let (minutes, cs) ← readDigits 2 cs
    if !cs.isEmpty || 24 < hours || 60 < minutes then none
    else if sign = '+' then some (60 * hours + minutes)
    else if sign = '-' then some (-(60 * hours + minutes))
    else none
  | [] => none

/-- A whole text as a moment. The letters may be small, and a blank may part date and time. -/
def Moment.ofChars? (cs : List Char) : Option Moment :=
  let cs := cs.map fun c => if c = 't' ∨ c = ' ' then 'T' else if c = 'z' then 'Z' else c
  match readDate cs with
  | some (date, []) => some (.localDate date)
  | some (date, 'T' :: cs) => do
    let (time, cs) ← readTime cs
    if cs.isEmpty then some (.localDateTime date time)
    else return .offsetDateTime date time (← readOffset cs)
  | some _ => none
  | none => do
    let (time, cs) ← readTime cs
    if cs.isEmpty then some (.localTime time) else none

/-- A number with zeros in front up to a width. -/
def zeroPadded (width n : Nat) : String := String.ofList (Number.padZeros width (Nat.toDigits 10 n))

/-- The text of a date. -/
def Date.text (d : Date) : String :=
  zeroPadded 4 d.year ++ "-" ++ zeroPadded 2 d.month ++ "-" ++ zeroPadded 2 d.day

/-- The text of a time. A fraction has no trailing zeros. -/
def Time.text (t : Time) : String :=
  let digits := Number.padZeros 9 (Nat.toDigits 10 t.nanosecond)
  let fraction := (digits.reverse.dropWhile (· = '0')).reverse
  zeroPadded 2 t.hour ++ ":" ++ zeroPadded 2 t.minute ++ ":" ++ zeroPadded 2 t.second ++
    if fraction.isEmpty then "" else "." ++ String.ofList fraction

/-- The text of an offset: a sign, two digits for hours and two for minutes. -/
def offsetText (offset : Int) : String :=
  (if offset < 0 then "-" else "+") ++ zeroPadded 2 (offset.natAbs / 60) ++
    zeroPadded 2 (offset.natAbs % 60)

/-- The text of a moment: date, time, offset and the name of the zone. Moments without a zone say
what they lack in its place. -/
def Moment.text : Moment → String
  | offsetDateTime date time offset =>
    date.text ++ " " ++ time.text ++ " " ++ offsetText offset ++ " " ++
      if offset = 0 then "UTC" else offsetText offset
  | localDateTime date time => date.text ++ " " ++ time.text ++ " +0000 datetime-local"
  | localDate date => date.text ++ " 00:00:00 +0000 date-local"
  | localTime time => "0000-01-01 " ++ time.text ++ " +0000 time-local"

end OperandStack.Toml
