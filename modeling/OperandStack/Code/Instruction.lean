import OperandStack.Code.Constant
import OperandStack.Code.Opcode

/-!
# Instructions

A step is what a body asks to be emitted; it addresses local variables with
64-bit slots. An instruction is what is recorded of it; its operands have 32 bits.
-/

namespace OperandStack

/-- A recorded instruction, by the form of its operands. -/
inductive Instruction where
  /-- No operand. -/
  | plain (op : Opcode)
  /-- A number as operand. -/
  | immediate (op : Opcode) (operand : Int32)
  /-- The slot of a local variable as operand. -/
  | access (op : Opcode) (slot : Int32)
  /-- A slot and what its variable grows by. -/
  | increment (op : Opcode) (slot delta : Int32)
  /-- A type as operand. -/
  | typed (op : Opcode) (owner : String)
  /-- A field as operand. -/
  | field (op : Opcode) (owner name descriptor : String)
  /-- A method as operand, and whether its owner is an interface. -/
  | method (op : Opcode) (owner name descriptor : String) (ofInterface : Bool)
  /-- A literal as operand. -/
  | load (op : Opcode) (constant : Constant)
  /-- A form that the encoder does not know. -/
  | unknown (form : UInt8) (op : Opcode)
  deriving DecidableEq, Repr

namespace Instruction

/-- The opcode of an instruction. -/
def opcode : Instruction → Opcode
  | plain op => op
  | immediate op _ => op
  | access op _ => op
  | increment op _ _ => op
  | typed op _ => op
  | field op .. => op
  | method op .. => op
  | load op _ => op
  | unknown _ op => op

/-- The number of the form of an instruction. -/
def form : Instruction → Nat
  | plain _ => 0
  | immediate .. => 1
  | access .. => 2
  | increment .. => 3
  | typed .. => 4
  | field .. => 5
  | method .. => 6
  | load .. => 7
  | unknown form _ => form.toNat

/-- The immediate number or local slot of an instruction; zero if it has neither. -/
def operand : Instruction → Int32
  | immediate _ operand => operand
  | access _ slot => slot
  | increment _ slot _ => slot
  | _ => 0

/-- What an instruction adds to a local variable; zero for all but increments. -/
def delta : Instruction → Int32
  | increment _ _ delta => delta
  | _ => 0

/-- The element type that an array creation asks for by number. -/
def elementTypeName (code : Int) : String :=
  match code with
  | 4 => "boolean"
  | 5 => "char"
  | 6 => "float"
  | 7 => "double"
  | 8 => "byte"
  | 9 => "short"
  | 10 => "int"
  | 11 => "long"
  | _ => "type(" ++ toString code ++ ")"

/-- An instruction as listings show it. -/
def text : Instruction → String
  | plain op => op.mnemonic
  | immediate op operand =>
    if op = .newarray then op.mnemonic ++ " " ++ elementTypeName operand.toInt
    else op.mnemonic ++ " " ++ toString operand.toInt
  | access op slot => op.mnemonic ++ " " ++ toString slot.toInt
  | increment op slot delta =>
    op.mnemonic ++ " " ++ toString slot.toInt ++ " " ++ toString delta.toInt
  | typed op owner => op.mnemonic ++ " " ++ owner
  | field op owner name descriptor =>
    op.mnemonic ++ " " ++ owner ++ "." ++ name ++ ":" ++ descriptor
  | method op owner name descriptor ofInterface =>
    op.mnemonic ++ " " ++ owner ++ "." ++ name ++ descriptor ++
      if ofInterface && op ≠ .invokeinterface then " (itf)" else ""
  | load op constant => op.mnemonic ++ " " ++ constant.text
  | unknown _ op => op.mnemonic

end Instruction

/-- What a body asks to be emitted. -/
inductive Step where
  | plain (op : Opcode)
  | immediate (op : Opcode) (operand : Int32)
  | access (op : Opcode) (slot : Int64)
  | increment (slot : Int64) (delta : Int32)
  | typed (op : Opcode) (owner : String)
  | field (op : Opcode) (owner name descriptor : String)
  | method (op : Opcode) (owner name descriptor : String) (ofInterface : Bool)
  | load (constant : Constant)
  deriving DecidableEq, Repr

namespace Step

/-- The instruction recorded for a step. Slots keep their lowest 32 bits. -/
def instruction : Step → Instruction
  | plain op => .plain op
  | immediate op operand => .immediate op operand
  | access op slot => .access op slot.toInt32
  | increment slot delta => .increment .iinc slot.toInt32 delta
  | typed op owner => .typed op owner
  | field op owner name descriptor => .field op owner name descriptor
  | method op owner name descriptor ofInterface => .method op owner name descriptor ofInterface
  | load constant => .load (if constant.isWide then .ldc2W else .ldc) constant

/-- The literal that a step loads. -/
def constant? : Step → Option Constant
  | load constant => some constant
  | _ => none

/-- The end of the local variable that a step reads or writes: its slot plus the slots of its
value, as a 64-bit sum. -/
def localEnd? : Step → Option Int64
  | plain op => op.compactLocal?.map fun (slot, width) => Int64.ofNat slot + Int64.ofNat width
  | access op slot => some (slot + Int64.ofNat op.localWidth)
  | increment slot _ => some (slot + 1)
  | _ => none

end Step

end OperandStack
