import OperandStack.Invocation
import OperandStack.Manipulation.Literal

/-!
# Atoms

An atom is a piece of a body that emits at most one instruction. Its effect on the
operand stack is known from the atom alone.
-/

namespace OperandStack

/-- The sorts of values that instructions tell apart on the stack and in local variables. -/
inductive Computational where
  | int
  | long
  | float
  | double
  | reference
  deriving DecidableEq, Repr

namespace Computational

/-- The slots of a value. -/
def size : Computational → ValueSize
  | long => .double
  | double => .double
  | _ => .single

/-- The opcode that loads a local variable. -/
def loadOp : Computational → Opcode
  | int => .iload
  | long => .lload
  | float => .fload
  | double => .dload
  | reference => .aload

/-- The opcode that loads the first local variable. -/
def compactLoadOp : Computational → Opcode
  | int => .iload0
  | long => .lload0
  | float => .fload0
  | double => .dload0
  | reference => .aload0

/-- The opcode that stores into a local variable. -/
def storeOp : Computational → Opcode
  | int => .istore
  | long => .lstore
  | float => .fstore
  | double => .dstore
  | reference => .astore

/-- The opcode that stores into the first local variable. -/
def compactStoreOp : Computational → Opcode
  | int => .istore0
  | long => .lstore0
  | float => .fstore0
  | double => .dstore0
  | reference => .astore0

/-- The opcode that returns a value. -/
def returnOp : Computational → Opcode
  | int => .ireturn
  | long => .lreturn
  | float => .freturn
  | double => .dreturn
  | reference => .areturn

end Computational

/-- The sort of the values of a kind; small integers count as ints. -/
def Kind.computational? : Kind → Option Computational
  | .void => none
  | .primitive .long => some .long
  | .primitive .float => some .float
  | .primitive .double => some .double
  | .reference => some .reference
  | _ => some .int

/-- What an array holds: primitive values, or references to values of a named type. -/
inductive Component where
  | primitive (p : Primitive)
  | reference (name : String)
  deriving DecidableEq, Repr

namespace Component

/-- What an array of a type holds; there is no array of `void`. -/
def ofType? (t : TypeDesc) : Option Component :=
  match t.kind with
  | .void => none
  | .primitive p => some (primitive p)
  | _ => some (reference t.name)

/-- The slots of an element. -/
def size : Component → ValueSize
  | primitive p => p.size
  | reference _ => .single

/-- The opcode that loads an element. -/
def loadOp : Component → Opcode
  | primitive .boolean => .baload
  | primitive .byte => .baload
  | primitive .short => .saload
  | primitive .char => .caload
  | primitive .int => .iaload
  | primitive .long => .laload
  | primitive .float => .faload
  | primitive .double => .daload
  | reference _ => .aaload

/-- The opcode that stores an element. -/
def storeOp : Component → Opcode
  | primitive .boolean => .bastore
  | primitive .byte => .bastore
  | primitive .short => .sastore
  | primitive .char => .castore
  | primitive .int => .iastore
  | primitive .long => .lastore
  | primitive .float => .fastore
  | primitive .double => .dastore
  | reference _ => .aastore

/-- The number by which array creation names a primitive sort. -/
def elementCode : Primitive → Int32
  | .boolean => 4
  | .char => 5
  | .float => 6
  | .double => 7
  | .byte => 8
  | .short => 9
  | .int => 10
  | .long => 11

/-- The step that creates an array. -/
def createStep : Component → Step
  | primitive p => .immediate .newarray (elementCode p)
  | reference name => .typed .anewarray name

end Component

/-- A widening conversion that takes an instruction. -/
inductive Conversion where
  | intToLong
  | intToFloat
  | intToDouble
  | longToFloat
  | longToDouble
  | floatToDouble
  deriving DecidableEq, Repr

namespace Conversion

/-- The opcode of a conversion. -/
def opcode : Conversion → Opcode
  | intToLong => .i2l
  | intToFloat => .i2f
  | intToDouble => .i2d
  | longToFloat => .l2f
  | longToDouble => .l2d
  | floatToDouble => .f2d

/-- The effect of a conversion. -/
def effect : Conversion → StackEffect
  | intToLong => ⟨1, 1⟩
  | intToFloat => ⟨0, 0⟩
  | intToDouble => ⟨1, 1⟩
  | longToFloat => ⟨-1, 0⟩
  | longToDouble => ⟨0, 0⟩
  | floatToDouble => ⟨1, 1⟩

end Conversion

/-- A piece of a body that emits at most one instruction. -/
inductive Atom where
  /-- Pushes a value known in advance. -/
  | push (l : Literal)
  /-- Copies the top value. -/
  | duplicate (size : ValueSize)
  /-- Copies the top value to below the value under it. -/
  | duplicateUnder (size under : ValueSize)
  /-- Drops the top value. -/
  | discard (size : ValueSize)
  /-- Throws the top reference. -/
  | throwTop
  /-- Widens the top value. -/
  | convert (c : Conversion)
  /-- Puts the top primitive value into its wrapper. -/
  | box (p : Primitive)
  /-- Takes the primitive value out of the wrapper on top. -/
  | unbox (p : Primitive)
  /-- Checks that the top reference is of a type. -/
  | cast (t : TypeDesc)
  /-- Replaces the receiver, if there is one, by the value of a field. -/
  | readField (f : Field)
  /-- Stores the top value into a field. -/
  | writeField (f : Field)
  /-- Replaces receiver and arguments by the result of a call. -/
  | invoke (i : Invocation)
  /-- Pushes a local variable. -/
  | load (c : Computational) (slot : Int64)
  /-- Pops into a local variable. -/
  | store (c : Computational) (slot : Int64)
  /-- Adds to a local int variable. -/
  | increment (slot : Int64) (delta : Int32)
  /-- Returns the top value, or nothing. -/
  | giveBack (c : Option Computational)
  /-- Pushes a new instance of a class. -/
  | create (t : TypeDesc)
  /-- Replaces a length by a new array. -/
  | createArray (c : Component)
  /-- Replaces an array and an index by the element. -/
  | loadElement (c : Component)
  /-- Pops an array, an index and an element, and stores it. -/
  | storeElement (c : Component)
  /-- Replaces an array by its length. -/
  | arrayLength

namespace Atom

/-- The step of a local access: the first four slots have opcodes of their own. -/
def localStep (compact indexed : Opcode) (slot : Int64) : Step :=
  if slot < 4 then .plain (compact.plus slot.toInt.toNat) else .access indexed slot

/-- The opcode that copies a value under another one. -/
def duplicateUnderOp (size under : ValueSize) : Opcode :=
  if size = .single then
    if under = .single then .dupX1 else .dupX2
  else if under = .single then .dup2X1
  else .dup2X2

/-- The step that an atom emits. Copies and drops of sizes other than one or two emit nothing. -/
def step? : Atom → Option Step
  | push l => some l.push.step
  | duplicate size =>
    if size = .single then some (.plain .dup)
    else if size = .double then some (.plain .dup2)
    else none
  | duplicateUnder size under => some (.plain (duplicateUnderOp size under))
  | discard size =>
    if size = .single then some (.plain .pop)
    else if size = .double then some (.plain .pop2)
    else none
  | throwTop => some (.plain .athrow)
  | convert c => some (.plain c.opcode)
  | box p =>
    let wrapper := TypeDesc.wrapper p
    some (.method .invokestatic wrapper.name "valueOf"
      ("(" ++ p.letter.toString ++ ")" ++ wrapper.descriptor) false)
  | unbox p =>
    some (.method .invokevirtual (TypeDesc.wrapper p).name (p.keyword ++ "Value")
      ("()" ++ p.letter.toString) false)
  | cast t => some (.typed .checkcast t.name)
  | readField f =>
    some (.field (if f.isStatic then .getstatic else .getfield) f.owner.name f.name f.descriptor)
  | writeField f =>
    some (.field (if f.isStatic then .putstatic else .putfield) f.owner.name f.name f.descriptor)
  | invoke i =>
    some (.method i.mode.opcode i.target.name i.method.name i.method.descriptor
      i.target.isInterface)
  | load c slot => some (localStep c.compactLoadOp c.loadOp slot)
  | store c slot => some (localStep c.compactStoreOp c.storeOp slot)
  | increment slot delta => some (.increment slot delta)
  | giveBack none => some (.plain .vreturn)
  | giveBack (some c) => some (.plain c.returnOp)
  | create t => some (.typed .new t.name)
  | createArray c => some c.createStep
  | loadElement c => some (.plain c.loadOp)
  | storeElement c => some (.plain c.storeOp)
  | arrayLength => some (.plain .arraylength)

/-- The effect of an atom. -/
def effect : Atom → StackEffect
  | push l => l.size.pushed
  | duplicate size => size.pushed
  | duplicateUnder size _ => size.pushed
  | discard size => size.popped
  | throwTop => ValueSize.single.popped
  | convert c => c.effect
  | box p => p.size.popped.followedBy ValueSize.single.pushed
  | unbox p => ValueSize.single.popped.followedBy p.size.pushed
  | cast _ => .zero
  | readField f =>
    let change := f.type.size.depth - Int64.ofNat f.receiverSlots
    ⟨change, change⟩
  | writeField f => ⟨-(f.type.size.depth + Int64.ofNat f.receiverSlots), 0⟩
  | invoke i => .ofNet (i.method.returns.size.depth - Int64.ofNat i.method.slots)
  | load c _ => c.size.pushed
  | store c _ => c.size.popped
  | increment .. => .zero
  | giveBack none => ValueSize.zero.popped
  | giveBack (some c) => c.size.popped
  | create _ => ValueSize.single.pushed
  | createArray _ => .zero
  | loadElement c => c.size.pushed.followedBy ⟨-2, 0⟩
  | storeElement c => c.size.popped.followedBy ⟨-2, 0⟩
  | arrayLength => .zero

/-- The name of an atom, where it has one. -/
def label? : Atom → Option String
  | push l => l.push.label?
  | convert c => some c.opcode.mnemonic
  | cast t => some ("checkcast " ++ t.name)
  | invoke i => some i.text
  | _ => none

/-- Emits an atom behind what has been emitted before. -/
def emitOnto (steps : Array Step) (a : Atom) : Array Step :=
  match a.step? with
  | some s => steps.push s
  | none => steps

end Atom

end OperandStack
