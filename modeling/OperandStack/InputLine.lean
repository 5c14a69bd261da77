import OperandStack.Text.Cells

/-!
# Input lines

A line of text that is edited at a cursor. It is shown through a window of fixed width,
which follows the cursor.
-/

namespace OperandStack

/-- What can be done to an input line. -/
inductive Edit where
  | moveLeft
  | moveRight
  | moveWordLeft
  | moveWordRight
  | moveToStart
  | moveToEnd
  | eraseLeft
  | eraseRight
  | eraseWordLeft
  | eraseWordRight
  | eraseToStart
  | eraseToEnd
  /-- Leaves the line as it is. -/
  | keep
  /-- Puts characters before the cursor. -/
  | insert (text : String)
  deriving DecidableEq, Repr

/-- The edit that a text stands for: the names of editing keys stand for what these do. -/
def Edit.ofTyped : String → Edit
  | "left" => moveLeft
  | "ctrl+b" => moveLeft
  | "right" => moveRight
  | "ctrl+f" => moveRight
  | "alt+left" => moveWordLeft
  | "ctrl+left" => moveWordLeft
  | "alt+b" => moveWordLeft
  | "alt+right" => moveWordRight
  | "ctrl+right" => moveWordRight
  | "alt+f" => moveWordRight
  | "home" => moveToStart
  | "ctrl+a" => moveToStart
  | "end" => moveToEnd
  | "ctrl+e" => moveToEnd
  | "ctrl+h" => eraseLeft
  | "delete" => eraseRight
  | "ctrl+d" => eraseRight
  | "alt+backspace" => eraseWordLeft
  | "ctrl+w" => eraseWordLeft
  | "alt+delete" => eraseWordRight
  | "alt+d" => eraseWordRight
  | "ctrl+u" => eraseToStart
  | "ctrl+k" => eraseToEnd
  | "ctrl+n" => keep
  | "ctrl+p" => keep
  | "ctrl+v" => keep
  | text => insert text

/-- A line of text with a cursor in it. -/
structure InputLine where
  /-- The characters before the cursor, the nearest first. -/
  before : List Char := []
  /-- The characters behind the cursor. -/
  after : List Char := []
  /-- The number of characters before the window. -/
  left : Nat := 0
  /-- The number of characters before the end of the window. -/
  right : Nat := 0
  deriving DecidableEq, Repr

namespace InputLine

/-- The characters of the line. -/
def chars (l : InputLine) : List Char := l.before.reverse ++ l.after

/-- The text of the line. -/
def text (l : InputLine) : String := String.ofList l.chars

/-- The cells of the window. -/
def windowCells : Nat := 40

/-- The number of characters at the front of a text that a window shows from there on. One cell
more is shown than the window has. -/
def countRight (cells : Nat) : List Char → Nat
  | [] => 0
  | c :: rest =>
    if windowCells < cells then 0
    else
      let cells := cells + Text.charCells c
      if cells ≤ windowCells + 1 then countRight cells rest + 1 else 0

/-- The number of characters at the front of a reversed text that a window shows up to there: as
many as fit, but never the first character of the text. -/
def countLeft (cells : Nat) : List Char → Nat
  | [] => 0
  | [_] => 0
  | c :: rest =>
    if windowCells ≤ cells then 0
    else
      let cells := cells + Text.charCells c
      if cells ≤ windowCells then countLeft cells rest + 1 else 0

/-- Moves the window so that it shows the cursor. -/
def scroll (l : InputLine) : InputLine :=
  let size := l.chars.length
  let cursor := l.before.length
  if Text.plainCells l.chars ≤ windowCells then { l with left := 0, right := size }
  else if cursor < l.left then { l with left := cursor, right := cursor + countRight 0 l.after }
  else if min l.right size ≤ cursor then
    { l with left := cursor - countLeft 0 l.before, right := cursor }
  else { l with right := min l.right size }

/-- The line with its text parted anew by the cursor. -/
def withCursor (l : InputLine) (before after : List Char) : InputLine :=
  { l with before, after }.scroll

/-- Moves the cursor to the left by so many characters. -/
def backward (l : InputLine) (count : Nat) : InputLine :=
  l.withCursor (l.before.drop count) ((l.before.take count).reverse ++ l.after)

/-- Moves the cursor to the right by so many characters. -/
def forward (l : InputLine) (count : Nat) : InputLine :=
  l.withCursor ((l.after.take count).reverse ++ l.before) (l.after.drop count)

/-- Whether a character parts words. -/
def isSpace (c : Char) : Bool :=
  let n := c.toNat
  (9 ≤ n && n ≤ 13) || n = 0x20 || n = 0x85 || n = 0xa0 || n = 0x1680 ||
    (0x2000 ≤ n && n ≤ 0x200a) || n = 0x2028 || n = 0x2029 || n = 0x202f || n = 0x205f ||
    n = 0x3000

/-- The length of the spaces at the front of a text together with the word behind them. -/
def wordLength (cs : List Char) : Nat :=
  let word := cs.dropWhile isSpace
  cs.length - (word.dropWhile fun c => !isSpace c).length

/-- Erases the word to the left of the cursor, and the space before it if that is the first
character of the line. -/
def eraseWordLeft (l : InputLine) : InputLine :=
  let kept := l.before.drop (wordLength l.before)
  if kept.length ≤ 1 then
    let moved := l.backward l.before.length
    moved.withCursor [] l.after
  else
    let moved := (l.backward (l.before.length - kept.length + 1)).forward 1
    moved.withCursor kept l.after

/-- Erases the word to the right of the cursor, with the character at the cursor in any case. -/
def eraseWordRight (l : InputLine) : InputLine :=
  match l.after with
  | [] => l
  | _ :: rest =>
    let moved := l.forward (wordLength rest + 1)
    moved.withCursor l.before (rest.drop (wordLength rest))

/-- Characters as they are put into a line: line ends and tabs become blanks, and controls are
dropped. -/
def cleanText (s : String) : List Char :=
  s.toList.filterMap fun c =>
    if c = '\n' ∨ c = '\r' ∨ c = '\t' then some ' '
    else if c.toNat < 0x20 ∨ (0x7f ≤ c.toNat ∧ c.toNat < 0xa0) ∨ c.toNat = 0xfffd then none
    else some c

/-- Carries out an edit. -/
def edit (l : InputLine) : Edit → InputLine
  | .moveLeft => l.backward 1
  | .moveRight => l.forward 1
  | .moveWordLeft => l.backward (wordLength l.before)
  | .moveWordRight => l.forward (wordLength l.after)
  | .moveToStart => l.backward l.before.length
  | .moveToEnd => l.forward l.after.length
  | .eraseLeft => l.withCursor (l.before.drop 1) l.after
  | .eraseRight => l.withCursor l.before (l.after.drop 1)
  | .eraseWordLeft => l.eraseWordLeft
  | .eraseWordRight => l.eraseWordRight
  | .eraseToStart => { l with left := 0 }.withCursor [] l.after
  | .eraseToEnd => l.withCursor l.before []
  | .keep => l
  | .insert s => l.withCursor ((cleanText s).reverse ++ l.before) l.after

/-- The part of the line in the window, with blanks up to the width. The cursor takes a cell of its
own behind the last character. -/
def shown (l : InputLine) : List Char :=
  let visible := (l.chars.take l.right).drop l.left
  let cells := Text.plainCells visible
  let blanks :=
    if cells ≤ windowCells then windowCells - cells + 1
    else if l.before.length < l.right then 0
    else 1
  visible ++ List.replicate blanks ' '

end InputLine

end OperandStack
