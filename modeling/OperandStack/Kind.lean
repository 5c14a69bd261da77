import OperandStack.Effect

/-!
# Kinds of values

A value is of one of eight primitive sorts or a reference; `void` is the kind of
no value. Kinds have a code and a descriptor letter.
-/

namespace OperandStack

/-- The eight primitive sorts of values. -/
inductive Primitive where
  | boolean
  | byte
  | short
  | char
  | int
  | long
  | float
  | double
  deriving DecidableEq, Repr

namespace Primitive

/-- The primitive sorts in the order of their codes. -/
def all : List Primitive := [boolean, byte, short, char, int, long, float, double]

theorem mem_all (p : Primitive) : p ∈ all := by
  cases p <;> decide

/-- The keyword of a primitive sort. -/
def keyword : Primitive → String
  | boolean => "boolean"
  | byte => "byte"
  | short => "short"
  | char => "char"
  | int => "int"
  | long => "long"
  | float => "float"
  | double => "double"

/-- The descriptor letter of a primitive sort. -/
def letter : Primitive → Char
  | boolean => 'Z'
  | byte => 'B'
  | short => 'S'
  | char => 'C'
  | int => 'I'
  | long => 'J'
  | float => 'F'
  | double => 'D'

/-- The primitive sort with a descriptor letter. -/
def ofLetter? : Char → Option Primitive
  | 'Z' => some boolean
  | 'B' => some byte
  | 'S' => some short
  | 'C' => some char
  | 'I' => some int
  | 'J' => some long
  | 'F' => some float
  | 'D' => some double
  | _ => none

/-- The primitive sort with a keyword. -/
def ofKeyword? : String → Option Primitive
  | "boolean" => some boolean
  | "byte" => some byte
  | "short" => some short
  | "char" => some char
  | "int" => some int
  | "long" => some long
  | "float" => some float
  | "double" => some double
  | _ => none

@[simp] theorem ofLetter?_letter (p : Primitive) : ofLetter? p.letter = some p := by
  cases p <;> rfl

/-- Only its own letter stands for a primitive sort. -/
theorem eq_letter_of_ofLetter? {c : Char} {p : Primitive} (h : ofLetter? c = some p) :
    c = p.letter := by
  unfold ofLetter? at h
  split at h <;> cases h <;> rfl

@[simp] theorem ofKeyword?_keyword (p : Primitive) : ofKeyword? p.keyword = some p := by
  cases p <;> rfl

/-- Only its own keyword stands for a primitive sort. -/
theorem eq_keyword_of_ofKeyword? {s : String} {p : Primitive} (h : ofKeyword? s = some p) :
    s = p.keyword := by
  unfold ofKeyword? at h
  split at h <;> cases h <;> rfl

/-- The slots of a primitive value. -/
def size : Primitive → ValueSize
  | long => .double
  | double => .double
  | _ => .single

end Primitive

/-- The kind of a value, or of the lack of one. -/
inductive Kind where
  | void
  | primitive (p : Primitive)
  | reference
  /-- A code that no kind has. -/
  | unassigned
  deriving DecidableEq, Repr

namespace Kind

/-- The kind with a code. -/
def ofCode (code : UInt8) : Kind :=
  match code.toNat with
  | 0 => void
  | 1 => primitive .boolean
  | 2 => primitive .byte
  | 3 => primitive .short
  | 4 => primitive .char
  | 5 => primitive .int
  | 6 => primitive .long
  | 7 => primitive .float
  | 8 => primitive .double
  | 9 => reference
  | _ => unassigned

/-- The name of a kind. -/
def name : Kind → String
  | void => "void"
  | primitive p => p.keyword
  | reference => "reference"
  | unassigned => "invalid"

/-- The kind with a name. -/
def ofName? : String → Option Kind
  | "void" => some void
  | "reference" => some reference
  | name => (Primitive.ofKeyword? name).map primitive

/-- The primitive sort of a kind. -/
def primitive? : Kind → Option Primitive
  | primitive p => some p
  | _ => none

/-- Whether values of a kind are primitive; `void` has none. -/
def isPrimitive (k : Kind) : Bool := k.primitive?.isSome

/-- The slots of a value of a kind. -/
def size : Kind → ValueSize
  | void => .zero
  | primitive p => p.size
  | _ => .single

/-- The descriptor letter of a kind. -/
def letter? : Kind → Option Char
  | void => some 'V'
  | primitive p => some p.letter
  | reference => some 'L'
  | unassigned => none

end Kind

end OperandStack
