import OperandStack.Text.Cells
import OperandStack.Text.Pen

/-!
# Tokens

A text with escape sequences is a list of tokens: pieces that take up cells or none, line
ends, and the changes of pen and link that its sequences bring about. Here sequences are
read by their grammar, across lines: a line end inside the text of a sequence belongs to
it, and a sequence that is cut short ends before the character that does not fit, which
is then read as text.
-/

namespace OperandStack.Text

/-- A part of a text. -/
inductive Token where
  | piece (p : Piece)
  | lineEnd
  /-- Numbers that change the pen. -/
  | paint (ns : List Parameter)
  /-- A command that may set a link. -/
  | link (command : String)

/-- The part of a control sequence that is being read. -/
inductive ControlPart where
  | start
  | parameters
  | intermediate
  deriving DecidableEq, Repr

/-- A control sequence up to its last character. -/
structure Control where
  part : ControlPart := .start
  /-- Whether a text follows the last character. -/
  isDevice : Bool := false
  /-- Whether there are parameters only. -/
  isPlain : Bool := true
  /-- The parameters, the last one first. -/
  reversed : List Parameter := [{}]

namespace Control

/-- The parameters. A single one that is not given does not count. -/
def parameters (k : Control) : List Parameter :=
  match k.reversed with
  | [⟨none, false⟩] => []
  | ps => ps.reverse

/-- A control sequence with one more digit. -/
def addDigit (k : Control) (d : Nat) : Control :=
  let reversed := match k.reversed with
    | [] => [⟨some d, false⟩]
    | p :: ps => { p with value? := some (10 * p.value + d) } :: ps
  { k with part := .parameters, reversed }

/-- A control sequence with its last parameter ended. -/
def endParameter (k : Control) (goesOn : Bool) : Control :=
  let reversed := match k.reversed with
    | [] => [{}]
    | p :: ps => {} :: { p with goesOn } :: ps
  { k with part := .parameters, reversed }

/-- A control sequence with one more character, unless the character does not belong before the
last one. -/
def add? (k : Control) (c : Char) : Option Control :=
  if k.part = .start ∧ '<' ≤ c ∧ c ≤ '?' then some { k with isPlain := false }
  else if k.part ≠ .intermediate ∧ c.isDigit then some (k.addDigit (c.toNat - '0'.toNat))
  else if k.part ≠ .intermediate ∧ c = ':' then some (k.endParameter true)
  else if k.part ≠ .intermediate ∧ c = ';' then some (k.endParameter false)
  else if ' ' ≤ c ∧ c ≤ '/' then some { k with part := .intermediate, isPlain := false }
  else none

end Control

/-- How far a sequence has been read. -/
inductive SequenceState where
  | outside
  /-- Behind the escape character; `direct` if it came last. -/
  | escape (direct : Bool)
  | control (k : Control)
  /-- In a text, with the characters read of it, the last one first. -/
  | text (isCommand : Bool) (reversed : List Char)

namespace SequenceState

/-- What a sequence brings about when its text ends. Only the command with the number eight does
anything. -/
def effect : SequenceState → List Token
  | text true reversed =>
    let chars := reversed.reverse
    let number := chars.takeWhile Char.isDigit
    let value := number.foldl (fun n c => 10 * n + (c.toNat - '0'.toNat)) 0
    if value = 8 then [.link (String.ofList chars)] else []
  | _ => []

/-- The state behind a byte past the first 128 outside of a sequence. -/
def ofHighByte (b : UInt8) : SequenceState :=
  if b = 0x9b then control {}
  else if b = 0x90 then control { isDevice := true }
  else if b = 0x9d then text true []
  else if b = 0x98 ∨ b = 0x9e ∨ b = 0x9f then text false []
  else outside

/-- The state behind a byte of a character past the first 128 that starts in a text. -/
def addHighByte (s : SequenceState) (b : UInt8) : SequenceState :=
  match s with
  | text _ _ => if b = 0x9c then outside else s
  | _ => ofHighByte b

end SequenceState

/-- A text while it is parted into tokens. -/
structure TokenReader where
  /-- The tokens that are complete, the last one first. -/
  done : List Token := []
  /-- The sequence or the cluster that is being read. -/
  current : SequenceState ⊕ Cluster := .inl .outside

namespace TokenReader

/-- The reader behind a character that takes no cell, with what the character brings about. -/
def after (done : List Token) (c : Char) (effect : List Token) (s : SequenceState) : TokenReader :=
  ⟨effect ++ .piece ⟨[c], 0, false⟩ :: done, .inl s⟩

/-- Reads a character outside of sequences and clusters. -/
def start (done : List Token) (c : Char) : TokenReader :=
  if c = '\x1b' then after done c [] (.escape true)
  else if c = '\n' then ⟨.lineEnd :: done, .inl .outside⟩
  else if 0x80 ≤ c.toNat then ⟨done, .inr (.ofChar c)⟩
  else
    let shown := 0x20 ≤ c.toNat ∧ c.toNat ≠ 0x7f
    ⟨.piece ⟨[c], if shown then 1 else 0, shown⟩ :: done, .inl .outside⟩

/-- Reads a character behind an escape. -/
def addToEscape (done : List Token) (direct : Bool) (c : Char) : TokenReader :=
  if c = '[' then after done c [] (.control { isPlain := direct })
  else if c = 'P' then after done c [] (.control { isDevice := direct, isPlain := false })
  else if c = ']' then after done c [] (.text direct [])
  else if c = 'X' ∨ c = '^' ∨ c = '_' then after done c [] (.text false [])
  else if ' ' ≤ c ∧ c ≤ '/' then after done c [] (.escape false)
  else if '0' ≤ c ∧ c ≤ '~' then after done c [] .outside
  else start done c

/-- Reads a character in a control sequence. -/
def addToControl (done : List Token) (k : Control) (c : Char) : TokenReader :=
  match k.add? c with
  | some k => after done c [] (.control k)
  | none =>
    if '@' ≤ c ∧ c ≤ '~' then
      if k.isDevice then after done c [] (.text false [])
      else after done c (if k.isPlain ∧ c = 'm' then [.paint k.parameters] else []) .outside
    else start done c

/-- Reads a character in the text of a sequence. An escape ends the text, and may be followed by a
backslash. -/
def addToText (done : List Token) (isCommand : Bool) (reversed : List Char) (c : Char) :
    TokenReader :=
  let s := SequenceState.text isCommand reversed
  if c = '\x1b' then after done c s.effect (.escape true)
  else if c = '\x18' ∨ c = '\x1a' then after done c s.effect .outside
  else if c = '\x07' ∧ isCommand then after done c s.effect .outside
  else
    let bytes := String.utf8EncodeChar c
    if bytes.contains 0x9c then after done c s.effect (bytes.foldl SequenceState.addHighByte s)
    else after done c [] (.text isCommand (c :: reversed))

/-- The tokens with the open cluster closed. -/
def closed (r : TokenReader) : List Token :=
  match r.current with
  | .inl _ => r.done
  | .inr k => .piece ⟨k.reversed.reverse, k.cells, true⟩ :: r.done

/-- Reads a character. -/
def add (r : TokenReader) (c : Char) : TokenReader :=
  match r.current with
  | .inl .outside => start r.done c
  | .inl (.escape direct) => addToEscape r.done direct c
  | .inl (.control k) => addToControl r.done k c
  | .inl (.text isCommand reversed) => addToText r.done isCommand reversed c
  | .inr k =>
    match k.add? c with
    | some k => { r with current := .inr k }
    | none => start r.closed c

/-- All tokens, the last one first. A text that has not ended acts as if it had. -/
def finish (r : TokenReader) : List Token :=
  match r.current with
  | .inl s => s.effect ++ r.done
  | .inr _ => r.closed

end TokenReader

/-- The tokens of a text. -/
def tokens (cs : List Char) : List Token := (cs.foldl TokenReader.add {}).finish.reverse

end OperandStack.Text
