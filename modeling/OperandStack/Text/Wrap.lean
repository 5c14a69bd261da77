import OperandStack.Text.Token

/-!
# Wrapped text

A line that is too wide is parted at its blanks, and the blanks there are dropped. A
line may also be parted behind a dash, and inside a word that is too wide for any line.
Pen and link are taken back at the end of every line and set again on the next.
-/

namespace OperandStack.Text

/-- A text while it is wrapped. -/
structure Wrapping where
  /-- The characters up to the last word, the last one first. -/
  reversed : List Char := []
  /-- The cells of the last line of these. -/
  lineCells : Nat := 0
  /-- The blanks behind that line. -/
  blanks : Nat := 0
  /-- The word behind the blanks, the last character first. -/
  word : List Char := []
  /-- The cells of that word. -/
  wordCells : Nat := 0
  /-- The pen behind the word. -/
  pen : Pen := .plain
  /-- The pen behind the line. -/
  linePen : Pen := .plain
  /-- The link behind the word. -/
  link : Link := .none
  /-- The link behind the line. -/
  lineLink : Link := .none

namespace Wrapping

/-- Adds characters without cells to the line. -/
def write (w : Wrapping) (s : String) : Wrapping :=
  { w with reversed := s.toList.reverse ++ w.reversed }

/-- Adds the blanks to the line. -/
def addBlanks (w : Wrapping) : Wrapping :=
  { w with
    reversed := List.replicate w.blanks ' ' ++ w.reversed
    lineCells := w.lineCells + w.blanks
    blanks := 0 }

/-- Adds the word to the line, with the blanks before it. -/
def addWord (w : Wrapping) : Wrapping :=
  if w.word.isEmpty then w
  else
    let w := w.addBlanks
    { w with
      reversed := w.word ++ w.reversed
      lineCells := w.lineCells + w.wordCells
      word := []
      wordCells := 0
      linePen := w.pen
      lineLink := w.link }

/-- Starts a new line. The word goes there. -/
def breakLine (w : Wrapping) : Wrapping :=
  let ending := w.linePen.closing ++ w.lineLink.closing ++ "\n"
  let beginning := w.lineLink.opening ++ w.linePen.opening
  { w.write (ending ++ beginning) with lineCells := 0, blanks := 0 }

/-- Ends the line with the word. Blanks at the end are kept if there is room for them. -/
def endLine (width : Nat) (w : Wrapping) : Wrapping :=
  let w :=
    if w.wordCells ≠ 0 then w
    else if width < w.lineCells + w.blanks then { w with lineCells := 0, blanks := 0 }
    else { w.addBlanks with lineCells := w.lineCells }
  w.addWord

/-- Adds a piece to the word. -/
def extendWord (width : Nat) (w : Wrapping) (p : Piece) : Wrapping :=
  let w := if width < w.wordCells + p.cells then w.addWord else w
  let w := { w with word := p.chars.reverse ++ w.word, wordCells := w.wordCells + p.cells }
  if width < w.lineCells + w.wordCells + w.blanks then w.breakLine else w

/-- Adds a piece. A blank parts words unless the pen makes it visible. -/
def addPiece (width : Nat) (w : Wrapping) (p : Piece) : Wrapping :=
  if p.cells = 0 then { w with word := p.chars.reverse ++ w.word }
  else if p.chars = [' '] ∧ w.pen.hidesBlanks then
    let w := w.addWord
    { w with blanks := w.blanks + 1 }
  else if p.chars = ['-'] then
    let w := w.addBlanks
    if w.lineCells + w.wordCells + p.cells ≤ width then
      let w := w.addWord
      { w with reversed := '-' :: w.reversed, lineCells := w.lineCells + p.cells }
    else w.extendWord width p
  else w.extendWord width p

/-- Adds a token. -/
def add (width : Nat) (w : Wrapping) : Token → Wrapping
  | .piece p => w.addPiece width p
  | .lineEnd => (w.endLine width).breakLine
  | .paint ns => { w with pen := w.pen.update ns }
  | .link command => { w with link := w.link.update command }

/-- All characters once the tokens are added. -/
def finish (width : Nat) (w : Wrapping) : List Char :=
  let w := w.endLine width
  (w.write (w.lineLink.closing ++ w.linePen.closing)).reversed.reverse

end Wrapping

/-- A text parted anew into lines each of which fits into a width. -/
def wrap (width : Nat) (cs : List Char) : List Char :=
  if width = 0 then cs else ((tokens cs).foldl (Wrapping.add width) {}).finish width

end OperandStack.Text
