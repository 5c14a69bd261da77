/-!
# Modifiers

The access flags of a type or a member, and the keywords that name them.
-/

namespace OperandStack

/-- A set of access flags. -/
structure Modifiers where
  /-- The flags, one bit each. -/
  flags : UInt16
  deriving DecidableEq, Repr

namespace Modifiers

/-- No flag. -/
def empty : Modifiers := ⟨0⟩

/-- Visible everywhere. -/
def isPublic : Modifiers := ⟨0x0001⟩

/-- Visible to the declaring type only. -/
def isPrivate : Modifiers := ⟨0x0002⟩

/-- Belonging to the type and not to its instances. -/
def isStatic : Modifiers := ⟨0x0008⟩

/-- Closed to change or extension. -/
def isFinal : Modifiers := ⟨0x0010⟩

/-- An interface type. -/
def isInterface : Modifiers := ⟨0x0200⟩

/-- Without an implementation. -/
def isAbstract : Modifiers := ⟨0x0400⟩

/-- Whether all flags of a set are present. -/
def has (m f : Modifiers) : Bool := m.flags &&& f.flags == f.flags

/-- The flags of either set. -/
def union (m f : Modifiers) : Modifiers := ⟨m.flags ||| f.flags⟩

/-- The flags of the first set that are not in the second. -/
def without (m f : Modifiers) : Modifiers := ⟨m.flags &&& ~~~f.flags⟩

/-- The flag named by a keyword. -/
def ofKeyword? : String → Option Modifiers
  | "public" => some isPublic
  | "private" => some isPrivate
  | "protected" => some ⟨0x0004⟩
  | "static" => some isStatic
  | "final" => some isFinal
  | "synchronized" => some ⟨0x0020⟩
  | "volatile" => some ⟨0x0040⟩
  | "transient" => some ⟨0x0080⟩
  | "native" => some ⟨0x0100⟩
  | "interface" => some isInterface
  | "abstract" => some isAbstract
  | "synthetic" => some ⟨0x1000⟩
  | "enum" => some ⟨0x4000⟩
  | _ => none

/-- The flags of every set in a list. -/
def unionAll (sets : List Modifiers) : Modifiers := sets.foldl union empty

end Modifiers

end OperandStack
