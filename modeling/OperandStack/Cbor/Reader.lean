import OperandStack.Cbor.Item

/-!
# Reading binary items

Items may have definite or indefinite lengths, and numbers in any width. Arrays and
maps nest to a fixed depth and have a greatest size; both bound the recursion.

Writer and reader together are a format. What is made of items relies on the two laws of
a lawful format only, and on nothing else about the bytes.
-/

namespace OperandStack.Cbor

/-- How deep arrays and maps may nest. A tag directly inside a tag counts as a level, too. -/
def maxLevels : Nat := 32

/-- The most elements of an array, and the most pairs of a map. -/
def maxElements : Nat := 131072

/-- The head of an item. -/
structure Head where
  /-- The major type, below eight. -/
  major : Nat
  /-- The low five bits of the first byte. -/
  info : Nat
  /-- The number that the head holds. -/
  value : Nat
  deriving DecidableEq, Repr

/-- The first so many bytes, and the rest. -/
def splitBytes (count : Nat) (bytes : List UInt8) : Option (List UInt8 × List UInt8) :=
  let taken := bytes.take count
  if taken.length = count then some (taken, bytes.drop count) else none

/-- The number of bytes given most significant first. -/
def bigEndianValue (bytes : List UInt8) : Nat := bytes.foldl (fun n b => 256 * n + b.toNat) 0

/-- The number of bytes that hold the number of a head. -/
def headWidth? : (info : Nat) → Option Nat
  | 24 => some 1
  | 25 => some 2
  | 26 => some 4
  | 27 => some 8
  | _ => none

/-- Reads a head. Simple values below 32 have a single byte. -/
def readHead : List UInt8 → Option (Head × List UInt8)
  | [] => none
  | b :: rest =>
    let major := b.toNat / 32
    let info := b.toNat % 32
    if info < 24 then some (⟨major, info, info⟩, rest)
    else if info = 31 then
      if 2 ≤ major ∧ major ≤ 5 then some (⟨major, info, 0⟩, rest) else none
    else do
      let width ← headWidth? info
      let (digits, rest) ← splitBytes width rest
      let value := bigEndianValue digits
      if major = 7 ∧ info = 24 ∧ value < 32 then none else some (⟨major, info, value⟩, rest)

/-- The byte that ends an item of indefinite length. -/
def breakByte : UInt8 := 0xff

/-- Reads so many things and puts them, last first, before those read already. -/
def readMany {α : Type} (read : List UInt8 → Option (α × List UInt8)) :
    (count : Nat) → (done : List α) → List UInt8 → Option (List α × List UInt8)
  | 0, done, bytes => some (done.reverse, bytes)
  | count + 1, done, bytes =>
    match read bytes with
    | none => none
    | some (x, rest) => readMany read count (x :: done) rest

/-- Reads things up to the break, at most so many. -/
def readToBreak {α : Type} (read : List UInt8 → Option (α × List UInt8)) :
    (most : Nat) → (done : List α) → List UInt8 → Option (List α × List UInt8)
  | most, done, bytes =>
    if bytes.head? = some breakByte then some (done.reverse, bytes.drop 1)
    else match most with
      | 0 => none
      | most + 1 =>
        match read bytes with
        | none => none
        | some (x, rest) => readToBreak read most (x :: done) rest

/-- Reads two things after each other. -/
def readPair {α : Type} (read : List UInt8 → Option (α × List UInt8)) (bytes : List UInt8) :
    Option ((α × α) × List UInt8) := do
  let (key, bytes) ← read bytes
  let (value, bytes) ← read bytes
  return ((key, value), bytes)

/-- Reads one piece of a string of indefinite length. -/
def readChunk (major : Nat) (bytes : List UInt8) : Option (List UInt8 × List UInt8) := do
  let (head, rest) ← readHead bytes
  if head.major = major ∧ head.info ≠ 31 then splitBytes head.value rest else none

/-- Reads the pieces of a string. -/
def readChunks (head : Head) (bytes : List UInt8) : Option (List (List UInt8) × List UInt8) :=
  if head.info = 31 then readToBreak (readChunk head.major) bytes.length [] bytes
  else do
    let (piece, rest) ← splitBytes head.value bytes
    return ([piece], rest)

/-- The text of pieces each of which has to be whole. -/
def textOfChunks (pieces : List (List UInt8)) : Item :=
  match pieces.mapM fun piece => String.fromUTF8? ⟨piece.toArray⟩ with
  | some texts => .text (String.join texts)
  | none => .garbledText

/-- Reads the tags that follow a first tag, innermost last; each needs a level. -/
def readTags : (levels : Nat) → List UInt8 → Option (List Nat × List UInt8)
  | levels, bytes => do
    let (head, rest) ← readHead bytes
    if head.major ≠ 6 then return ([], bytes)
    else match levels with
      | 0 => none
      | levels + 1 =>
        let (tags, rest) ← readTags levels rest
        return (head.value :: tags, rest)

/-- Reads one item that may nest so many levels. -/
def read (levels : Nat) (bytes : List UInt8) : Option (Item × List UInt8) := do
  let (head, rest) ← readHead bytes
  let (tags, head, rest, levels') ←
    if head.major = 6 then do
      let (more, rest) ← readTags levels rest
      let (inner, rest) ← readHead rest
      pure (head.value :: more, inner, rest, levels - more.length)
    else pure ([], head, rest, levels)
  let (item, rest) ←
    match head.major with
    | 0 => pure (.unsigned head.value, rest)
    | 1 => pure (.negative head.value, rest)
    | 2 => do
      let (pieces, rest) ← readChunks head rest
      pure (.bytes pieces.flatten, rest)
    | 3 => do
      let (pieces, rest) ← readChunks head rest
      pure (textOfChunks pieces, rest)
    | 4 =>
      if _ : 0 < levels' ∧ levels' ≤ levels then do
        let readInner := fun bytes => read (levels' - 1) bytes
        let (items, rest) ←
          if head.info = 31 then readToBreak readInner maxElements [] rest
          else if head.value ≤ maxElements then readMany readInner head.value [] rest
          else none
        pure (.array items, rest)
      else none
    | 5 =>
      if _ : 0 < levels' ∧ levels' ≤ levels then do
        let readInner := fun bytes => read (levels' - 1) bytes
        let (pairs, rest) ←
          if head.info = 31 then readToBreak (readPair readInner) maxElements [] rest
          else if head.value ≤ maxElements then readMany (readPair readInner) head.value [] rest
          else none
        pure (.map pairs, rest)
      else none
    | 7 => pure (if 25 ≤ head.info ∧ head.info ≤ 27 then .float else .simple head.value, rest)
    | _ => none
  return (tags.foldr .tagged item, rest)
termination_by levels

/-- The item that a whole byte string encodes. -/
def decode? (bytes : List UInt8) : Option Item :=
  match read maxLevels bytes with
  | some (item, []) => some item
  | _ => none

/-- A binary format: how items are written, and how byte strings are read. -/
structure Format where
  encode : Item → List UInt8
  decode? : List UInt8 → Option Item

/-- Items written canonically. The reader takes other encodings, too. -/
def Format.canonical : Format := ⟨Item.encode, Cbor.decode?⟩

end OperandStack.Cbor
