import OperandStack.Text.Wrap

/-!
# Blocks of text

A block is a text whose lines all take the same room. Blanks at the end of a line fill
it up, a tab is shown as four blanks, and a line end is a line feed alone.
-/

namespace OperandStack.Text

/-- Characters without the carriage returns that stand before line feeds. -/
def plainLineEnds (cs : List Char) : List Char :=
  let add (before : List Char) (c : Char) : List Char :=
    match c, before with
    | '\n', '\r' :: rest => '\n' :: rest
    | c, before => c :: before
  (cs.foldl add []).reverse

/-- Characters with four blanks for every tab. -/
def expandTabs (cs : List Char) : List Char :=
  cs.flatMap fun c => if c = '\t' then [' ', ' ', ' ', ' '] else [c]

/-- The lines of a text. -/
def splitLines (cs : List Char) : List (List Char) :=
  cs.foldr
    (fun c lines =>
      if c = '\n' then [] :: lines
      else match lines with
        | [] => [[c]]
        | line :: rest => (c :: line) :: rest)
    [[]]

/-- Lines with line feeds between them. -/
def joinedLines (lines : List (List Char)) : List Char := List.intercalate ['\n'] lines

/-- A line with blanks at its end up to a width. -/
def fillLine (width : Nat) (line : List Char) : List Char :=
  line ++ List.replicate (width - lineCells line) ' '

/-- The pieces of a line that fit into a width, and what is no text of the others. -/
def takeCells (width : Nat) : List Piece → List Char
  | [] => []
  | p :: rest =>
    if width < p.cells then (rest.filter fun q => !q.isText).flatMap Piece.chars
    else p.chars ++ takeCells (width - p.cells) rest

/-- A line cut to a width. -/
def cutLine (width : Nat) (line : List Char) : List Char :=
  if lineCells line ≤ width then line else takeCells width (pieces line)

/-- The cells of the widest of several lines. -/
def widest (lines : List (List Char)) : Nat := (lines.map lineCells).foldl max 0

/-- Lines filled up to a width, and cut to it. -/
def fitLines (width : Nat) (lines : List (List Char)) : List (List Char) :=
  let full := max width (widest lines)
  lines.map fun line => cutLine width (fillLine full line)

/-- A text as a block. A text of one line is not filled up. -/
def block (s : String) : String :=
  match splitLines (plainLineEnds (expandTabs s.toList)) with
  | [line] => String.ofList line
  | lines =>
    String.ofList (joinedLines (lines.map (fillLine (widest lines))))

end OperandStack.Text
