import OperandStack.Number.Operations

/-!
# Binary items

The data items of a binary object format, and their canonical encoding: every
length and number in its shortest form. Bytes are appended to an array, so that
long lists take no stack.
-/

namespace OperandStack.Cbor

/-- A data item. -/
inductive Item where
  | unsigned (n : Nat)
  /-- The number `-1 - n`. -/
  | negative (n : Nat)
  | bytes (data : List UInt8)
  | text (s : String)
  /-- A text whose bytes spell no characters. -/
  | garbledText
  | array (items : List Item)
  /-- Keys and values in the order of the data. -/
  | map (pairs : List (Item × Item))
  | tagged (tag : Nat) (content : Item)
  /-- A simple value; 22 and 23 stand for nothing at all. -/
  | simple (n : Nat)
  /-- A floating-point number, which no reader asks for. -/
  | float

instance : Inhabited Item := ⟨.simple 22⟩

/-- The lowest `width` bytes of a number, most significant first. -/
def bigEndian : (width n : Nat) → List UInt8
  | 0, _ => []
  | width + 1, n => bigEndian width (n / 256) ++ [UInt8.ofNat n]

/-- The head of an item: its major type and a number in the shortest form. -/
def headBytes (major n : Nat) : List UInt8 :=
  let first (info : Nat) : UInt8 := UInt8.ofNat (32 * major + info)
  if n < 24 then [first n]
  else if n < 2 ^ 8 then first 24 :: bigEndian 1 n
  else if n < 2 ^ 16 then first 25 :: bigEndian 2 n
  else if n < 2 ^ 32 then first 26 :: bigEndian 4 n
  else first 27 :: bigEndian 8 n

/-- The bytes of a text. -/
def textBytes (s : String) : List UInt8 := s.toUTF8.data.toList

namespace Item

/-- The item that stands for nothing at all. -/
def null : Item := simple 22

/-- The item of a number. -/
def ofInt (i : Int) : Item := if 0 ≤ i then unsigned i.toNat else negative (-1 - i).toNat

mutual

/-- Appends the bytes of an item. -/
def encodeOnto (out : Array UInt8) : Item → Array UInt8
  | unsigned n => out ++ headBytes 0 n
  | negative n => out ++ headBytes 1 n
  | bytes data => out ++ headBytes 2 data.length ++ data
  | text s => out ++ headBytes 3 (textBytes s).length ++ textBytes s
  | garbledText => out ++ headBytes 3 0
  | array items => encodeAllOnto (out ++ headBytes 4 items.length) items
  | map pairs => encodePairsOnto (out ++ headBytes 5 pairs.length) pairs
  | tagged tag content => encodeOnto (out ++ headBytes 6 tag) content
  | simple n => out ++ headBytes 7 n
  | float => out ++ ([0xf9, 0, 0] : List UInt8)

/-- Appends the bytes of items in order. -/
def encodeAllOnto (out : Array UInt8) : List Item → Array UInt8
  | [] => out
  | item :: rest => encodeAllOnto (encodeOnto out item) rest

/-- Appends the bytes of keys and values in order. -/
def encodePairsOnto (out : Array UInt8) : List (Item × Item) → Array UInt8
  | [] => out
  | (key, value) :: rest => encodePairsOnto (encodeOnto (encodeOnto out key) value) rest

end

/-- The bytes of an item. -/
def encode (item : Item) : List UInt8 := (encodeOnto #[] item).toList

end Item

end OperandStack.Cbor
