import OperandStack.Code.Instruction
import OperandStack.Type.Builtin

/-!
# Literals on the stack

Every literal is pushed by the shortest means there is: an opcode of its own, a
number inside the code, or an entry of the constant pool.
-/

namespace OperandStack

/-- A value known in advance. -/
inductive Literal where
  | int (value : Int32)
  | long (value : Int64)
  | float (bits : UInt32)
  | double (bits : UInt64)
  | null
  | text (value : String)
  /-- The class literal of a type. -/
  | typeOf (t : TypeDesc)

/-- A means of pushing a literal. -/
inductive Push where
  /-- An opcode that stands for the value. -/
  | dedicated (op : Opcode)
  /-- A number inside the code. -/
  | immediate (op : Opcode) (operand : Int32)
  /-- An entry of the constant pool. -/
  | pooled (constant : Constant)
  /-- The static field of a wrapper class that holds the class literal of a primitive type. -/
  | primitiveClass (owner : String)
  deriving DecidableEq, Repr

namespace Push

/-- The step that pushes the value. -/
def step : Push → Step
  | dedicated op => .plain op
  | immediate op operand => .immediate op operand
  | pooled constant => .load constant
  | primitiveClass owner => .field .getstatic owner "TYPE" "Ljava/lang/Class;"

/-- The name of a push, where it has one. -/
def label? : Push → Option String
  | dedicated op => some op.mnemonic
  | pooled constant => some ("ldc " ++ constant.text)
  | _ => none

end Push

namespace Literal

/-- The means for an int: opcodes for minus one to five, one byte, two bytes, then the pool. -/
def pushInt (v : Int32) : Push :=
  if -1 ≤ v ∧ v ≤ 5 then .dedicated (Opcode.iconstM1.plus (v + 1).toInt.toNat)
  else if -128 ≤ v ∧ v ≤ 127 then .immediate .bipush v
  else if -32768 ≤ v ∧ v ≤ 32767 then .immediate .sipush v
  else .pooled (.int v)

/-- The means for a long. -/
def pushLong (v : Int64) : Push :=
  if v = 0 then .dedicated .lconst0
  else if v = 1 then .dedicated .lconst1
  else .pooled (.long v)

/-- The means for a float. Only the patterns of positive zero, one and two have opcodes. -/
def pushFloat (bits : UInt32) : Push :=
  if bits = 0 then .dedicated .fconst0
  else if bits = 0x3f800000 then .dedicated .fconst1
  else if bits = 0x40000000 then .dedicated .fconst2
  else .pooled (.float bits)

/-- The means for a double. Only the patterns of positive zero and one have opcodes. -/
def pushDouble (bits : UInt64) : Push :=
  if bits = 0 then .dedicated .dconst0
  else if bits = 0x3ff0000000000000 then .dedicated .dconst1
  else .pooled (.double bits)

/-- The means for a class literal. -/
def pushType (t : TypeDesc) : Push :=
  match t.kind with
  | .void => .primitiveClass "java/lang/Void"
  | .primitive p => .primitiveClass (TypeDesc.wrapper p).name
  | _ => .pooled (.classOf t.name)

/-- The means of pushing a literal. -/
def push : Literal → Push
  | int value => pushInt value
  | long value => pushLong value
  | float bits => pushFloat bits
  | double bits => pushDouble bits
  | null => .dedicated .aconstNull
  | text value => .pooled (.string value)
  | typeOf t => pushType t

/-- The slots of a literal. -/
def size : Literal → ValueSize
  | long _ => .double
  | double _ => .double
  | _ => .single

/-- One for true and zero for false. -/
def ofBool (b : Bool) : Literal := int (if b then 1 else 0)

/-- The zero of a kind: none for `void`, the null reference for references. -/
def default? : Kind → Option Literal
  | .void => none
  | .primitive .long => some (long 0)
  | .primitive .float => some (float 0)
  | .primitive .double => some (double 0)
  | .reference => some null
  | _ => some (int 0)

end Literal

end OperandStack
