import OperandStack.Proofs.Pool.Consistency

/-!
# Reading code arrays back

A reference decoder for code arrays. It reads the bytes from left to right, takes
as many operand bytes as the opcode asks for, the wide forms included, and looks up
every pool index among the entries of a constant pool. It knows nothing of how the
bytes were laid down: neither the index map of the pool nor the encoder.
-/

namespace OperandStack

/-- What follows an opcode in a code array. -/
inductive OperandForm where
  /-- Nothing. -/
  | none
  /-- A signed byte. -/
  | signedByte
  /-- Two bytes of a signed number. -/
  | signedShort
  /-- An unsigned byte. -/
  | unsignedByte
  /-- The slot of a local variable. -/
  | slot
  /-- A slot and a signed byte. -/
  | increment
  /-- A pool index of one byte, for a literal of one slot. -/
  | shortLiteral
  /-- A pool index, for a literal of one slot. -/
  | literal
  /-- A pool index, for a literal of two slots. -/
  | wideLiteral
  /-- The pool index of a class. -/
  | type
  /-- The pool index of a field. -/
  | field
  /-- The pool index of a method. -/
  | method
  /-- The pool index of a method, a count of slots and a zero byte. -/
  | interfaceMethod
  /-- The opcode of a local access, with operands of twice the length. -/
  | wide
  deriving DecidableEq, Repr

/-- The operands of an opcode. Jumps, switches and the other opcodes with operands of their own
are left out. -/
def Opcode.operandForm? (op : Opcode) : Option OperandForm :=
  let n := op.byte.toNat
  if n < 0x10 then some .none
  else if n = 0x10 then some .signedByte
  else if n = 0x11 then some .signedShort
  else if n = 0x12 then some .shortLiteral
  else if n = 0x13 then some .literal
  else if n = 0x14 then some .wideLiteral
  else if n < 0x1a then some .slot
  else if n < 0x36 then some .none
  else if n < 0x3b then some .slot
  else if n < 0x84 then some .none
  else if n = 0x84 then some .increment
  else if n < 0x99 then some .none
  else if n < 0xac then none
  else if n < 0xb2 then some .none
  else if n < 0xb6 then some .field
  else if n < 0xb9 then some .method
  else if n = 0xb9 then some .interfaceMethod
  else if n = 0xba then none
  else if n = 0xbb then some .type
  else if n = 0xbc then some .unsignedByte
  else if n = 0xbd then some .type
  else if n < 0xc0 then some .none
  else if n < 0xc2 then some .type
  else if n < 0xc4 then some .none
  else if n = 0xc4 then some .wide
  else none

namespace Instruction

/-- Whether an opcode belongs to the form of its instruction and the operands fit it. -/
def WellFormed : Instruction → Prop
  | plain op => op.operandForm? = some .none
  | immediate op operand =>
    op = .bipush ∧ -128 ≤ operand.toInt ∧ operand.toInt ≤ 127 ∨
      op = .sipush ∧ -32768 ≤ operand.toInt ∧ operand.toInt ≤ 32767 ∨
      op = .newarray ∧ 0 ≤ operand.toInt ∧ operand.toInt ≤ 255
  | access op _ =>
    op ∈ [Opcode.iload, .lload, .fload, .dload, .aload, .istore, .lstore, .fstore, .dstore, .astore]
  | increment op _ _ => op = .iinc
  | typed op _ => op ∈ [Opcode.new, .anewarray, .checkcast, .instanceof]
  | field op .. => op ∈ [Opcode.getstatic, .putstatic, .getfield, .putfield]
  | method op .. =>
    op ∈ [Opcode.invokevirtual, .invokespecial, .invokestatic, .invokeinterface]
  | load op constant =>
    constant.tag ≠ 0 ∧ op = if constant.isWide then .ldc2W else .ldc
  | unknown _ _ => False

instance : DecidablePred WellFormed := fun i => by
  cases i <;> unfold WellFormed <;> infer_instance

end Instruction

/-- The literal in a pool entry that can be loaded. -/
def PoolEntry.literal? : PoolEntry → Option Constant
  | classRef name => some (.classOf name)
  | e => e.constant?

/-- A number of two bytes, the higher one first. -/
def unsignedShort (high low : UInt8) : Nat := high.toNat * 256 + low.toNat

/-- The signed number that stands behind an unsigned one of a given range. -/
def signedIn (range n : Nat) : Int32 := Int32.ofInt ((n : Int).bmod range)

namespace ConstantPool

/-- The literal that an index denotes. -/
def literalAt? (pool : ConstantPool) (i : Nat) : Option Constant :=
  pool.entryAt? i >>= PoolEntry.literal?

/-- The instruction for a literal, if it is as wide as the opcode says. -/
def readLiteral? (pool : ConstantPool) (i : Nat) (isWide : Bool) : Option Instruction := do
  let c ← pool.literalAt? i
  if c.isWide = isWide then return .load (if isWide then .ldc2W else .ldc) c else none

/-- The instruction for the class that an index denotes. -/
def readType? (pool : ConstantPool) (op : Opcode) (i : Nat) : Option Instruction :=
  match pool.entryAt? i with
  | some (.classRef name) => some (.typed op name)
  | _ => none

/-- The instruction for the field that an index denotes. -/
def readField? (pool : ConstantPool) (op : Opcode) (i : Nat) : Option Instruction :=
  match pool.entryAt? i with
  | some (.fieldRef owner name descriptor) => some (.field op owner name descriptor)
  | _ => none

/-- The instruction for the method that an index denotes. -/
def readMethod? (pool : ConstantPool) (op : Opcode) (i : Nat) : Option Instruction :=
  match pool.entryAt? i with
  | some (.methodRef owner name descriptor) => some (.method op owner name descriptor false)
  | some (.interfaceMethodRef owner name descriptor) =>
    some (.method op owner name descriptor true)
  | _ => none

/-- Reads the operands of an opcode that follows the prefix for wide operands. -/
def readWide? : List UInt8 → Option (Instruction × List UInt8)
  | [] => none
  | b :: bytes =>
    let op : Opcode := ⟨b⟩
    match op.operandForm?, bytes with
    | some .slot, x :: y :: rest => some (.access op (.ofNat (unsignedShort x y)), rest)
    | some .increment, x :: y :: z :: w :: rest =>
      some (.increment op (.ofNat (unsignedShort x y)) (signedIn 65536 (unsignedShort z w)), rest)
    | _, _ => none

/-- Reads one instruction, and gives the bytes behind it. -/
def readInstruction? (pool : ConstantPool) : List UInt8 → Option (Instruction × List UInt8)
  | [] => none
  | b :: bytes =>
    let op : Opcode := ⟨b⟩
    match op.operandForm?, bytes with
    | some .none, rest => some (.plain op, rest)
    | some .signedByte, x :: rest => some (.immediate op (signedIn 256 x.toNat), rest)
    | some .signedShort, x :: y :: rest =>
      some (.immediate op (signedIn 65536 (unsignedShort x y)), rest)
    | some .unsignedByte, x :: rest => some (.immediate op (.ofNat x.toNat), rest)
    | some .slot, x :: rest => some (.access op (.ofNat x.toNat), rest)
    | some .increment, x :: y :: rest =>
      some (.increment op (.ofNat x.toNat) (signedIn 256 y.toNat), rest)
    | some .shortLiteral, x :: rest => (pool.readLiteral? x.toNat false).map (·, rest)
    | some .literal, x :: y :: rest => (pool.readLiteral? (unsignedShort x y) false).map (·, rest)
    | some .wideLiteral, x :: y :: rest =>
      (pool.readLiteral? (unsignedShort x y) true).map (·, rest)
    | some .type, x :: y :: rest => (pool.readType? op (unsignedShort x y)).map (·, rest)
    | some .field, x :: y :: rest => (pool.readField? op (unsignedShort x y)).map (·, rest)
    | some .method, x :: y :: rest => (pool.readMethod? op (unsignedShort x y)).map (·, rest)
    | some .interfaceMethod, x :: y :: _ :: z :: rest =>
      if z = 0 then (pool.readMethod? op (unsignedShort x y)).map (·, rest) else none
    | some .wide, rest => readWide? rest
    | _, _ => none

/-- Reads instructions until no byte is left. -/
def readInstructions? (pool : ConstantPool) : (fuel : Nat) → List UInt8 → Option (List Instruction)
  | _, [] => some []
  | 0, _ :: _ => none
  | fuel + 1, b :: bytes => do
    let (instruction, rest) ← pool.readInstruction? (b :: bytes)
    return instruction :: (← pool.readInstructions? fuel rest)

/-- The instructions of a code array. Each takes a byte at least, so that the length of the array
bounds their number. -/
def decode? (pool : ConstantPool) (code : List UInt8) : Option (List Instruction) :=
  pool.readInstructions? code.length code

end ConstantPool

end OperandStack
