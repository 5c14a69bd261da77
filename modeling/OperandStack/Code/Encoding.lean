import OperandStack.Code.ConstantPool
import OperandStack.Code.Instruction

/-!
# Code arrays

Instructions are laid down as bytes. What an instruction refers to is entered into
a constant pool, and its index is written instead. Slots and pool indices beyond
one byte take the wide forms. A code array has at most 65535 bytes.
-/

namespace OperandStack

/-- Where a scan of method parameters stands. -/
inductive ParameterScan where
  /-- Before a parameter or the closing parenthesis. -/
  | between
  /-- Behind the brackets of an array. -/
  | inArray
  /-- Inside a class name. -/
  | inName
  deriving DecidableEq, Repr

/-- Counts the slots of the parameters from a place in a method descriptor on. One byte of any sort
is taken for the component of an array. -/
def scanParameters (whole : String) :
    ParameterScan → (offset slots : Nat) → List Char → Except Error Nat
  | _, i, _, [] => .error (.invalidDescriptor whole i)
  | .between, i, n, c :: rest =>
    if c = ')' then .ok n
    else if c = 'J' ∨ c = 'D' then scanParameters whole .between (i + 1) (n + 2) rest
    else if c = 'L' then scanParameters whole .inName (i + 1) n rest
    else if c = '[' then scanParameters whole .inArray (i + 1) n rest
    else if c ∈ ['Z', 'B', 'C', 'S', 'I', 'F'] then
      scanParameters whole .between (i + 1) (n + 1) rest
    else .error (.invalidDescriptor whole i)
  | .inArray, i, n, c :: rest =>
    if c = '[' then scanParameters whole .inArray (i + 1) n rest
    else if c = 'L' then scanParameters whole .inName (i + 1) n rest
    else if c.utf8Size = 1 then scanParameters whole .between (i + 1) (n + 1) rest
    else .error (.invalidDescriptor whole (i + 1))
  | .inName, i, n, c :: rest =>
    if c = ';' then scanParameters whole .between (i + 1) (n + 1) rest
    else scanParameters whole .inName (i + c.utf8Size) n rest

/-- The slots of the parameters of a method descriptor. -/
def argumentSlots (descriptor : String) : Except Error Nat :=
  match descriptor.toList with
  | '(' :: rest => scanParameters descriptor .between 1 0 rest
  | _ => .error (.invalidDescriptor descriptor 0)

namespace Instruction

/-- A number as two bytes, the higher one first. -/
def twoBytes (n : Nat) : List UInt8 := [UInt8.ofNat (n / 256), UInt8.ofNat n]

/-- The lowest byte of a signed number. -/
def lowByte (n : Int32) : UInt8 := UInt8.ofNat n.toUInt32.toNat

/-- The lowest two bytes of a signed number. -/
def lowTwoBytes (n : Int32) : List UInt8 := twoBytes (n.toUInt32.toNat % 65536)

/-- Refuses a slot that two bytes cannot address. -/
def checkSlot (slot : Int32) : Pooling Unit :=
  if slot < 0 ∨ 65535 < slot then
    throw (.overflow (some .encode) ["local"] (toString slot.toInt) "65535")
  else pure ()

/-- The bytes of the instruction with a number in its method. -/
def encode (number : Nat) : Instruction → Pooling (List UInt8)
  | plain op => return [op.byte]
  | immediate op operand =>
    if op = .sipush then return op.byte :: lowTwoBytes operand
    else return [op.byte, lowByte operand]
  | access op slot => do
    checkSlot slot
    if 255 < slot then return Opcode.wide.byte :: op.byte :: lowTwoBytes slot
    else return [op.byte, lowByte slot]
  | increment _ slot delta => do
    checkSlot slot
    if delta < -32768 ∨ 32767 < delta then
      throw (.overflow (some .encode) ["iinc"] (toString delta.toInt) "the int16 range")
    if 255 < slot ∨ delta < -128 ∨ 127 < delta then
      return Opcode.wide.byte :: Opcode.iinc.byte :: (lowTwoBytes slot ++ lowTwoBytes delta)
    else return [Opcode.iinc.byte, lowByte slot, lowByte delta]
  | typed op owner => do
    let i ← ConstantPool.classRef owner
    return op.byte :: twoBytes i
  | field op owner name descriptor => do
    let i ← ConstantPool.field owner name descriptor
    return op.byte :: twoBytes i
  | method op owner name descriptor ofInterface => do
    let i ← ConstantPool.method owner name descriptor ofInterface
    if op = .invokeinterface then
      let slots ← argumentSlots descriptor
      return op.byte :: (twoBytes i ++ [UInt8.ofNat (slots + 1), 0])
    else return op.byte :: twoBytes i
  | load _ constant => do
    let i ← ConstantPool.literal constant
    if constant.isWide then return Opcode.ldc2W.byte :: twoBytes i
    else if 255 < i then return Opcode.ldcW.byte :: twoBytes i
    else return [Opcode.ldc.byte, UInt8.ofNat i]
  | unknown form _ =>
    throw (.report {
      phase := some .encode
      kind := .invalidData
      path := ["instruction"]
      value := some (toString number)
      detail := "unknown instruction form " ++ toString form.toNat })

/-- The bytes of instructions in order, behind the bytes laid down before. -/
def encodeFrom (number : Nat) (bytes : Array UInt8) : List Instruction → Pooling (Array UInt8)
  | [] => return bytes
  | i :: rest => do
    let more ← i.encode number
    encodeFrom (number + 1) (bytes ++ more) rest

end Instruction

/-- The greatest length of a code array. -/
def maxCodeLength : Nat := 65535

/-- The code array of instructions. -/
def encodeCode (instructions : List Instruction) : Pooling (Array UInt8) := do
  let bytes ← Instruction.encodeFrom 0 #[] instructions
  if maxCodeLength < bytes.size then
    throw (.overflow (some .encode) ["code"] (toString bytes.size) "65535 bytes")
  return bytes

/-- Runs work on a pool. -/
def Pooling.on {α : Type} (work : Pooling α) (pool : ConstantPool) :
    Except Error α × ConstantPool :=
  StateT.run (ExceptT.run work) pool

end OperandStack
