/-!
# Pens

A pen is the way in which a terminal writes text: in which colours, how heavy, and with
which lines. Sequences of numbers change it. Text may also be written as a link.
-/

namespace OperandStack.Text

/-- One of the numbers that change a pen. -/
structure Parameter where
  /-- The number, if it is given. -/
  value? : Option Nat := none
  /-- Whether the number behind it belongs to it. -/
  goesOn : Bool := false
  deriving DecidableEq, Repr

/-- The number, with zero for one that is not given. -/
def Parameter.value (p : Parameter) : Nat := p.value?.getD 0

/-- A colour. -/
inductive Colour where
  /-- One of the first sixteen. -/
  | basic (n : Nat)
  /-- One of a palette of 256. -/
  | indexed (n : Nat)
  | direct (red green blue : Nat)
  deriving DecidableEq, Repr

/-- A line below the text. -/
inductive Underline where
  | single
  | double
  | curly
  | dotted
  | dashed
  deriving DecidableEq, Repr

/-- A way to write text. -/
structure Pen where
  bold : Bool := false
  faint : Bool := false
  italic : Bool := false
  slowBlink : Bool := false
  rapidBlink : Bool := false
  reversed : Bool := false
  concealed : Bool := false
  struck : Bool := false
  underline : Option Underline := none
  foreground : Option Colour := none
  background : Option Colour := none
  underlineColour : Option Colour := none
  deriving DecidableEq, Repr

/-- The colour that the numbers behind a first one describe, and how many numbers do so. Nothing if
they do not describe one in any of the known forms. -/
def readColour (first : Parameter) : List Parameter → Option (Option Colour × Nat)
  | [] => none
  | form :: rest =>
    let direct (r g b : Parameter) : Option Colour :=
      some (.direct (r.value % 256) (g.value % 256) (b.value % 256))
    let together := first.goesOn && form.goesOn
    let apart := !first.goesOn && !form.goesOn
    match form.value, rest with
    | 0, _ => some (none, 1)
    | 1, _ => some (some (.direct 0 0 0), 1)
    | 2, space :: r :: g :: b :: _ =>
      if together && space.goesOn && r.goesOn && g.goesOn && !b.goesOn then
        some (direct r g b, 5)
      else if together && space.goesOn && r.goesOn && !g.goesOn then some (direct space r g, 4)
      else if apart && !space.goesOn && !r.goesOn && !g.goesOn then some (direct space r g, 4)
      else none
    | 2, [r, g, b] =>
      if (together && r.goesOn && g.goesOn && !b.goesOn) ||
          (apart && !r.goesOn && !g.goesOn && !b.goesOn) then some (direct r g b, 4)
      else none
    | 5, n :: _ =>
      if (together || apart) && !n.goesOn then some (some (.indexed (n.value % 256)), 2) else none
    | _, _ => none

namespace Pen

/-- The pen of plain text. -/
def plain : Pen := {}

/-- Whether blanks written with the pen look like any other blanks. -/
def hidesBlanks (p : Pen) : Bool := !p.reversed && p.background.isNone && p.underline.isNone

/-- The pen with another underline, if the number stands for one. -/
def withUnderline? (p : Pen) : Nat → Option Pen
  | 0 => some { p with underline := none }
  | 1 => some { p with underline := some .single }
  | 2 => some { p with underline := some .double }
  | 3 => some { p with underline := some .curly }
  | 4 => some { p with underline := some .dotted }
  | 5 => some { p with underline := some .dashed }
  | _ => none

/-- The pen changed by a number that stands alone. -/
def change (p : Pen) (n : Nat) : Pen :=
  if 30 ≤ n ∧ n < 38 then { p with foreground := some (.basic (n - 30)) }
  else if 40 ≤ n ∧ n < 48 then { p with background := some (.basic (n - 40)) }
  else if 90 ≤ n ∧ n < 98 then { p with foreground := some (.basic (n - 90 + 8)) }
  else if 100 ≤ n ∧ n < 108 then { p with background := some (.basic (n - 100 + 8)) }
  else match n with
    | 0 => plain
    | 1 => { p with bold := true }
    | 2 => { p with faint := true }
    | 3 => { p with italic := true }
    | 4 => { p with underline := some .single }
    | 5 => { p with slowBlink := true }
    | 6 => { p with rapidBlink := true }
    | 7 => { p with reversed := true }
    | 8 => { p with concealed := true }
    | 9 => { p with struck := true }
    | 22 => { p with bold := false, faint := false }
    | 23 => { p with italic := false }
    | 24 => { p with underline := none }
    | 25 => { p with slowBlink := false, rapidBlink := false }
    | 27 => { p with reversed := false }
    | 28 => { p with concealed := false }
    | 29 => { p with struck := false }
    | 39 => { p with foreground := none }
    | 49 => { p with background := none }
    | 59 => { p with underlineColour := none }
    | _ => p

/-- The pen with a colour at the place that a number stands for. -/
def withColour (p : Pen) (place : Nat) (c : Option Colour) : Pen :=
  if place = 38 then { p with foreground := c }
  else if place = 48 then { p with background := c }
  else { p with underlineColour := c }

/-- The pen changed by numbers in order. Those that an earlier one has used up are skipped. -/
def changeAll (p : Pen) (skipped : Nat) : List Parameter → Pen
  | [] => p
  | n :: rest =>
    if 0 < skipped then p.changeAll (skipped - 1) rest
    else if n.value = 38 ∨ n.value = 48 ∨ n.value = 58 then
      match readColour n rest with
      | some (c, used) => (p.withColour n.value c).changeAll used rest
      | none => p.changeAll 0 rest
    else if n.value = 4 ∧ n.goesOn then
      match rest with
      | [] => (p.change 4).changeAll 0 rest
      | form :: _ =>
        match p.withUnderline? form.value with
        | some p => p.changeAll 1 rest
        | none => p.changeAll 0 rest
    else (p.change n.value).changeAll 0 rest

/-- The pen changed by the numbers of a sequence. A sequence without any brings back the plain
one. -/
def update (p : Pen) (ns : List Parameter) : Pen := if ns.isEmpty then plain else p.changeAll 0 ns

end Pen

/-- The numbers that set a colour, given the one that says where it is used. -/
def Colour.numbers (place : Nat) : Colour → List Nat
  | basic n =>
    if place = 58 then [place, 5, n]
    else if n < 8 then [place - 8 + n]
    else [place + 52 + (n - 8)]
  | indexed n => [place, 5, n]
  | direct r g b => [place, 2, r, g, b]

/-- The text that sets an underline. -/
def Underline.text : Underline → String
  | single => "4"
  | double => "4:2"
  | curly => "4:3"
  | dotted => "4:4"
  | dashed => "4:5"

namespace Pen

/-- The texts that set a pen, in order. -/
def settings (p : Pen) : List String :=
  let flag (on : Bool) (text : String) : List String := if on then [text] else []
  let colour (place : Nat) (c : Option Colour) : List String :=
    ((c.map (Colour.numbers place)).getD []).map toString
  flag p.bold "1" ++ flag p.faint "2" ++ flag p.italic "3" ++ flag p.slowBlink "5" ++
    flag p.rapidBlink "6" ++ flag p.reversed "7" ++ flag p.concealed "8" ++ flag p.struck "9" ++
    (p.underline.map Underline.text).toList ++ colour 38 p.foreground ++ colour 48 p.background ++
    colour 58 p.underlineColour

/-- The sequence that sets a pen. -/
def sequence (p : Pen) : String := "\x1b[" ++ ";".intercalate p.settings ++ "m"

/-- What takes a pen back at the end of a line; nothing for the plain one. -/
def closing (p : Pen) : String := if p = plain then "" else "\x1b[m"

/-- What sets a pen at the start of a line; nothing for the plain one. -/
def opening (p : Pen) : String := if p = plain then "" else p.sequence

end Pen

/-- Where text leads to. -/
structure Link where
  options : String := ""
  target : String := ""
  deriving DecidableEq, Repr

namespace Link

/-- No link at all. -/
def none : Link := {}

/-- The sequence that sets a link. -/
def sequence (l : Link) : String := "\x1b]8;" ++ l.options ++ ";" ++ l.target ++ "\x07"

/-- What takes a link back at the end of a line; nothing if there is none. -/
def closing (l : Link) : String := if l = none then "" else none.sequence

/-- What sets a link at the start of a line; nothing if there is none. -/
def opening (l : Link) : String := if l = none then "" else l.sequence

/-- The link after a system command. Only a command of three parts sets one. -/
def update (l : Link) (command : String) : Link :=
  match command.splitOn ";" with
  | [_, options, target] => ⟨options, target⟩
  | _ => l

end Link

end OperandStack.Text
