import OperandStack.Number.Operations
import OperandStack.Text.Cluster

/-!
# Cells

A terminal shows text in cells. Most characters take one cell, those of the wide
scripts take two, and marks and controls take none. A cluster takes the room of its
characters, but a pictograph with its marks takes the room of a pictograph, and a flag
or a syllable the room of its first part. Escape sequences take no room.
-/

namespace OperandStack.Text

/-- Characters of two cells. -/
private def wideRanges : List (Nat × Nat) := [
  (0x1100, 0x115f), (0x231a, 0x231b), (0x2329, 0x232a), (0x23e9, 0x23ec), (0x23f0, 0x23f0),
  (0x23f3, 0x23f3), (0x25fd, 0x25fe), (0x2614, 0x2615), (0x2648, 0x2653), (0x267f, 0x267f),
  (0x2693, 0x2693), (0x26a1, 0x26a1), (0x26aa, 0x26ab), (0x26bd, 0x26be), (0x26c4, 0x26c5),
  (0x26ce, 0x26ce), (0x26d4, 0x26d4), (0x26ea, 0x26ea), (0x26f2, 0x26f3), (0x26f5, 0x26f5),
  (0x26fa, 0x26fa), (0x26fd, 0x26fd), (0x2705, 0x2705), (0x270a, 0x270b), (0x2728, 0x2728),
  (0x274c, 0x274c), (0x274e, 0x274e), (0x2753, 0x2755), (0x2757, 0x2757), (0x2795, 0x2797),
  (0x27b0, 0x27b0), (0x27bf, 0x27bf), (0x2b1b, 0x2b1c), (0x2b50, 0x2b50), (0x2b55, 0x2b55),
  (0x2e80, 0x2e99), (0x2e9b, 0x2ef3), (0x2f00, 0x2fd5), (0x2ff0, 0x2ffb), (0x3000, 0x303e),
  (0x3041, 0x3096), (0x3099, 0x30ff), (0x3105, 0x312f), (0x3131, 0x318e), (0x3190, 0x31e3),
  (0x31f0, 0x321e), (0x3220, 0x3247), (0x3250, 0x4dbf), (0x4e00, 0xa48c), (0xa490, 0xa4c6),
  (0xa960, 0xa97c), (0xac00, 0xd7a3), (0xf900, 0xfaff), (0xfe10, 0xfe19), (0xfe30, 0xfe52),
  (0xfe54, 0xfe66), (0xfe68, 0xfe6b), (0xff01, 0xff60), (0xffe0, 0xffe6), (0x16fe0, 0x16fe4),
  (0x16ff0, 0x16ff1), (0x17000, 0x187f7), (0x18800, 0x18cd5), (0x18d00, 0x18d08),
  (0x1aff0, 0x1aff3), (0x1aff5, 0x1affb), (0x1affd, 0x1affe), (0x1b000, 0x1b122),
  (0x1b132, 0x1b132), (0x1b150, 0x1b152), (0x1b155, 0x1b155), (0x1b164, 0x1b167),
  (0x1b170, 0x1b2fb), (0x1f004, 0x1f004), (0x1f0cf, 0x1f0cf), (0x1f18e, 0x1f18e),
  (0x1f191, 0x1f19a), (0x1f200, 0x1f202), (0x1f210, 0x1f23b), (0x1f240, 0x1f248),
  (0x1f250, 0x1f251), (0x1f260, 0x1f265), (0x1f300, 0x1f320), (0x1f32d, 0x1f335),
  (0x1f337, 0x1f37c), (0x1f37e, 0x1f393), (0x1f3a0, 0x1f3ca), (0x1f3cf, 0x1f3d3),
  (0x1f3e0, 0x1f3f0), (0x1f3f4, 0x1f3f4), (0x1f3f8, 0x1f43e), (0x1f440, 0x1f440),
  (0x1f442, 0x1f4fc), (0x1f4ff, 0x1f53d), (0x1f54b, 0x1f54e), (0x1f550, 0x1f567),
  (0x1f57a, 0x1f57a), (0x1f595, 0x1f596), (0x1f5a4, 0x1f5a4), (0x1f5fb, 0x1f64f),
  (0x1f680, 0x1f6c5), (0x1f6cc, 0x1f6cc), (0x1f6d0, 0x1f6d2), (0x1f6d5, 0x1f6d7),
  (0x1f6dc, 0x1f6df), (0x1f6eb, 0x1f6ec), (0x1f6f4, 0x1f6fc), (0x1f7e0, 0x1f7eb),
  (0x1f7f0, 0x1f7f0), (0x1f90c, 0x1f93a), (0x1f93c, 0x1f945), (0x1f947, 0x1f9ff),
  (0x1fa70, 0x1fa7c), (0x1fa80, 0x1fa88), (0x1fa90, 0x1fabd), (0x1fabf, 0x1fac5),
  (0x1face, 0x1fadb), (0x1fae0, 0x1fae8), (0x1faf0, 0x1faf8), (0x20000, 0x2fffd),
  (0x30000, 0x3fffd)]

/-- Pictographs that are shown in colour, and so in two cells. -/
private def emojiRanges : List (Nat × Nat) := [
  (0x231a, 0x231b), (0x23e9, 0x23ec), (0x23f0, 0x23f0), (0x23f3, 0x23f3), (0x25fd, 0x25fe),
  (0x2614, 0x2615), (0x2648, 0x2653), (0x267f, 0x267f), (0x2693, 0x2693), (0x26a1, 0x26a1),
  (0x26aa, 0x26ab), (0x26bd, 0x26be), (0x26c4, 0x26c5), (0x26ce, 0x26ce), (0x26d4, 0x26d4),
  (0x26ea, 0x26ea), (0x26f2, 0x26f3), (0x26f5, 0x26f5), (0x26fa, 0x26fa), (0x26fd, 0x26fd),
  (0x2705, 0x2705), (0x270a, 0x270b), (0x2728, 0x2728), (0x274c, 0x274c), (0x274e, 0x274e),
  (0x2753, 0x2755), (0x2757, 0x2757), (0x2795, 0x2797), (0x27b0, 0x27b0), (0x27bf, 0x27bf),
  (0x2b1b, 0x2b1c), (0x2b50, 0x2b50), (0x2b55, 0x2b55), (0x1f004, 0x1f004), (0x1f0cf, 0x1f0cf),
  (0x1f18e, 0x1f18e), (0x1f191, 0x1f19a), (0x1f1e6, 0x1f1ff), (0x1f201, 0x1f201),
  (0x1f21a, 0x1f21a), (0x1f22f, 0x1f22f), (0x1f232, 0x1f236), (0x1f238, 0x1f23a),
  (0x1f250, 0x1f251), (0x1f300, 0x1f320), (0x1f32d, 0x1f335), (0x1f337, 0x1f37c),
  (0x1f37e, 0x1f393), (0x1f3a0, 0x1f3ca), (0x1f3cf, 0x1f3d3), (0x1f3e0, 0x1f3f0),
  (0x1f3f4, 0x1f3f4), (0x1f3f8, 0x1f43e), (0x1f440, 0x1f440), (0x1f442, 0x1f4fc),
  (0x1f4ff, 0x1f53d), (0x1f54b, 0x1f54e), (0x1f550, 0x1f567), (0x1f57a, 0x1f57a),
  (0x1f595, 0x1f596), (0x1f5a4, 0x1f5a4), (0x1f5fb, 0x1f64f), (0x1f680, 0x1f6c5),
  (0x1f6cc, 0x1f6cc), (0x1f6d0, 0x1f6d2), (0x1f6d5, 0x1f6d7), (0x1f6dc, 0x1f6df),
  (0x1f6eb, 0x1f6ec), (0x1f6f4, 0x1f6fc), (0x1f7e0, 0x1f7eb), (0x1f7f0, 0x1f7f0),
  (0x1f90c, 0x1f93a), (0x1f93c, 0x1f945), (0x1f947, 0x1f9ff), (0x1fa70, 0x1fa7c),
  (0x1fa80, 0x1fa88), (0x1fa90, 0x1fabd), (0x1fabf, 0x1fac5), (0x1face, 0x1fadb),
  (0x1fae0, 0x1fae8), (0x1faf0, 0x1faf8)]

/-- Whether a character belongs to a wide script. -/
def isWide (c : Char) : Bool := inRanges wideRanges c.toNat

/-- The cells of a character with a role. -/
def cellsWithRole (c : Char) : Role → Nat
  | .control => 0
  | .carriageReturn => 0
  | .lineFeed => 0
  | .extend => 0
  | .joiner => 0
  | .regional => 2
  | .pictograph => if inRanges emojiRanges c.toNat then 2 else 1
  | _ =>
    if c.toNat = 0x2e3a then 3
    else if c.toNat = 0x2e3b then 4
    else if isWide c then 2
    else 1

/-- Single characters without room of their own, past the controls. -/
private def unroomedRanges : List (Nat × Nat) := [
  (0x300, 0x36f), (0x483, 0x489), (0x70f, 0x70f), (0x7eb, 0x7f3), (0xc00, 0xc00), (0xc04, 0xc04),
  (0xcf3, 0xcf3), (0xd00, 0xd01), (0x135d, 0x135f), (0x180b, 0x180e), (0x1a7f, 0x1a7f),
  (0x1ab0, 0x1ace), (0x1b6b, 0x1b73), (0x1dc0, 0x1dff), (0x200b, 0x200f), (0x2028, 0x202e),
  (0x206a, 0x206f), (0x20d0, 0x20f0), (0x2cef, 0x2cf1), (0x2de0, 0x2dff), (0x3099, 0x309a),
  (0xa66f, 0xa672), (0xa674, 0xa67d), (0xa69e, 0xa69f), (0xa6f0, 0xa6f1), (0xa8e0, 0xa8f1),
  (0xfe20, 0xfe2f), (0xfeff, 0xfeff), (0xfff9, 0xfffb), (0xfffe, 0xffff), (0x101fd, 0x101fd),
  (0x10376, 0x1037a), (0x10eab, 0x10eac), (0x10f46, 0x10f50), (0x10f82, 0x10f85),
  (0x11300, 0x11301), (0x1133b, 0x1133c), (0x11366, 0x1136c), (0x11370, 0x11374),
  (0x16af0, 0x16af4), (0x1cf00, 0x1cf2d), (0x1cf30, 0x1cf46), (0x1d165, 0x1d169),
  (0x1d16d, 0x1d172), (0x1d17b, 0x1d182), (0x1d185, 0x1d18b), (0x1d1aa, 0x1d1ad),
  (0x1d242, 0x1d244), (0x1e000, 0x1e006), (0x1e008, 0x1e018), (0x1e01b, 0x1e021),
  (0x1e023, 0x1e024), (0x1e026, 0x1e02a), (0x1e08f, 0x1e08f), (0x1e8d0, 0x1e8d6)]

/-- The cells of a single character, taken by itself. -/
def charCells (c : Char) : Nat :=
  let n := c.toNat
  if n < 0x20 ∨ (0x7f ≤ n ∧ n < 0xa0) ∨ n = 0xad then 0
  else if n < 0x300 then 1
  else if inRanges unroomedRanges n then 0
  else if isWide c then 2
  else 1

/-- A cluster while it is read. -/
structure Cluster where
  /-- The characters, the last one first. -/
  reversed : List Char
  /-- The role of the first character. -/
  first : Role
  state : ClusterState
  /-- The number of cells. -/
  cells : Nat

namespace Cluster

/-- The cluster of one character. -/
def ofChar (c : Char) : Cluster :=
  let r := role c
  ⟨[c], r, .start r, cellsWithRole c r⟩

/-- The cells of a cluster with one more character. The two variation marks settle how a pictograph
is shown. -/
def cellsWith (k : Cluster) (c : Char) (r : Role) : Nat :=
  match k.first with
  | .pictograph => if c.toNat = 0xfe0e then 1 else if c.toNat = 0xfe0f then 2 else k.cells
  | .regional => k.cells
  | .leading => k.cells
  | _ => k.cells + cellsWithRole c r

/-- A cluster with one more character, unless the character starts a new one. -/
def add? (k : Cluster) (c : Char) : Option Cluster :=
  let r := role c
  match k.state.next? r with
  | some state => some ⟨c :: k.reversed, k.first, state, k.cellsWith c r⟩
  | none => none

end Cluster

/-- The cells of a text without escape sequences, behind an open cluster. -/
def clusterCells (k : Cluster) : List Char → Nat
  | [] => k.cells
  | c :: rest =>
    match k.add? c with
    | some k => clusterCells k rest
    | none => k.cells + clusterCells (.ofChar c) rest

/-- The cells of a text without escape sequences. -/
def plainCells : List Char → Nat
  | [] => 0
  | c :: rest => clusterCells (.ofChar c) rest

/-- How far an escape sequence has been read. -/
inductive EscapeState where
  /-- Outside of any sequence. -/
  | outside
  /-- Behind the escape character. -/
  | escape
  /-- Behind intermediate characters. -/
  | intermediate
  /-- Among the parameters of a control sequence. -/
  | parameters
  /-- At the start of a device control. -/
  | device
  /-- Among the parameters of a device control. -/
  | deviceParameters
  /-- Behind intermediate characters of a device control. -/
  | deviceIntermediate
  /-- In the text of a device control. -/
  | deviceText
  /-- In the text of a system command, which a bell ends too. -/
  | commandText
  /-- In the text of another string. -/
  | stringText
  deriving DecidableEq, Repr

namespace EscapeState

/-- Whether characters past the first 128 belong to the sequence. -/
def takesAll : EscapeState → Bool
  | deviceText => true
  | commandText => true
  | _ => false

/-- The state behind one of the first 128 bytes. -/
def nextLow (s : EscapeState) (n : Nat) : EscapeState :=
  if n = 0x18 ∨ n = 0x1a then outside
  else if n = 0x1b then if s = device then deviceText else escape
  else match s with
    | outside => outside
    | escape =>
      if n < 0x20 ∨ n = 0x7f then escape
      else if n < 0x30 then intermediate
      else if n = 0x5b then parameters
      else if n = 0x5d then commandText
      else if n = 0x50 then device
      else if n = 0x58 ∨ n = 0x5e ∨ n = 0x5f then stringText
      else outside
    | intermediate => if n < 0x30 ∨ n = 0x7f then intermediate else outside
    | parameters =>
      if n < 0x20 ∨ n = 0x7f ∨ (0x30 ≤ n ∧ n < 0x40) then parameters
      else if n < 0x30 then intermediate
      else outside
    | device =>
      if (0x08 ≤ n ∧ n < 0x0e) ∨ (0x40 ≤ n ∧ n < 0x7f) then deviceText
      else if n < 0x20 ∨ n = 0x7f then device
      else if n < 0x30 then deviceIntermediate
      else deviceParameters
    | deviceParameters =>
      if n < 0x20 ∨ n = 0x7f ∨ (0x30 ≤ n ∧ n < 0x40) then deviceParameters
      else if n < 0x30 then deviceIntermediate
      else deviceText
    | deviceIntermediate => if n < 0x30 ∨ n = 0x7f then deviceIntermediate else deviceText
    | deviceText => deviceText
    | commandText => if n = 0x07 then outside else commandText
    | stringText => stringText

/-- The state behind a byte past the first 128. Some of these bytes start a sequence by themselves,
and one ends any text. -/
def nextHigh (s : EscapeState) (n : Nat) : EscapeState :=
  if s.takesAll then if n = 0x9c then outside else s
  else if n = 0x90 then device
  else if n = 0x9b then parameters
  else if n = 0x9d then commandText
  else if n = 0x98 ∨ n = 0x9e ∨ n = 0x9f then stringText
  else outside

/-- The state behind a byte. -/
def next (s : EscapeState) (b : UInt8) : EscapeState :=
  if b < 0x80 then s.nextLow b.toNat else s.nextHigh b.toNat

/-- The state behind all bytes of a character. The text of a sequence may end inside one. -/
def nextChar (s : EscapeState) (c : Char) : EscapeState := (String.utf8EncodeChar c).foldl next s

end EscapeState

/-- A piece of text that is never parted, with its cells. -/
structure Piece where
  chars : List Char
  cells : Nat
  /-- Whether the piece is text, as opposed to controls and sequences. -/
  isText : Bool := true

/-- A text while it is parted into pieces. -/
structure PieceReader where
  /-- The pieces that are complete, the last one first. -/
  done : List Piece
  /-- The escape sequence or the cluster that is being read. -/
  current : EscapeState ⊕ Cluster

namespace PieceReader

/-- Reads a character that goes on with no cluster. -/
def start (done : List Piece) (s : EscapeState) (c : Char) : PieceReader :=
  if c.toNat < 0x80 then
    let shown := s = .outside ∧ 0x20 ≤ c.toNat ∧ c.toNat ≠ 0x7f
    ⟨⟨[c], if shown then 1 else 0, shown⟩ :: done, .inl (s.nextChar c)⟩
  else if s.takesAll then ⟨⟨[c], 0, false⟩ :: done, .inl (s.nextChar c)⟩
  else ⟨done, .inr (.ofChar c)⟩

/-- The pieces with the open cluster closed. -/
def closed (r : PieceReader) : List Piece :=
  match r.current with
  | .inl _ => r.done
  | .inr k => ⟨k.reversed.reverse, k.cells, true⟩ :: r.done

/-- Reads a character. -/
def add (r : PieceReader) (c : Char) : PieceReader :=
  match r.current with
  | .inl s => start r.done s c
  | .inr k =>
    match k.add? c with
    | some k => { r with current := .inr k }
    | none => start r.closed .outside c

end PieceReader

/-- The pieces of a text: clusters, single characters of the first 128, and the characters of
escape sequences. -/
def pieces (cs : List Char) : List Piece :=
  (cs.foldl PieceReader.add ⟨[], .inl .outside⟩).closed.reverse

/-- The cells of several pieces. -/
def piecesCells (ps : List Piece) : Nat := (ps.map Piece.cells).sum

/-- The cells of a line of text. -/
def lineCells (cs : List Char) : Nat := piecesCells (pieces cs)

end OperandStack.Text
