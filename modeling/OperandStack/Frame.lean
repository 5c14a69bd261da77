import OperandStack.Code.Encoding
import OperandStack.Code.Recording
import OperandStack.Journal
import OperandStack.Manipulation.Basic

/-!
# Method frames

A body is emitted for a method if it is valid and its frame keeps within limits:
the operand stack by the peak of the body's effect, and the local variables by the
slots of the arguments and by every local access of the body.
-/

namespace OperandStack

/-- The limits that a frame keeps to. -/
structure Limits where
  /-- The deepest operand stack; anything out of range means the greatest one. -/
  maxStack : Int64
  /-- The most slots of local variables; anything out of range means the greatest number. -/
  maxLocals : Int64
  /-- Whether methods are recorded without a code array. -/
  skipEncode : Bool
  deriving DecidableEq, Repr

namespace Limits

/-- The limit of the format. -/
def greatest : Int64 := 65535

/-- The limits of the format. -/
def default : Limits := ⟨greatest, greatest, false⟩

/-- A limit in force. -/
def inForce (limit : Int64) : Int64 :=
  if limit ≤ 0 ∨ greatest < limit then greatest else limit

end Limits

/-- What emission has found out about a frame. -/
structure FrameSize where
  /-- The effect of the body. -/
  effect : StackEffect
  /-- The deepest operand stack. -/
  maxStack : Int64
  /-- The slots of the local variables. -/
  maxLocals : Int64
  /-- The number of instructions. -/
  instructions : Nat
  deriving DecidableEq, Repr

/-- The frame of nothing. -/
def FrameSize.zero : FrameSize := ⟨.zero, 0, 0, 0⟩

/-- The slots of local variables once a step has been emitted. -/
def touchLocal (maxLocals : Int64) (s : Step) : Int64 :=
  match s.localEnd? with
  | some stop => if maxLocals < stop then stop else maxLocals
  | none => maxLocals

/-- The slots of the local variables of a method with the given steps. -/
def maxLocalsOf (m : Method) (steps : Array Step) : Int64 :=
  steps.foldl touchLocal (Int64.ofNat m.slots)

/-- An emitted body: its frame, its steps, and the error that refused it. -/
structure EmittedBody where
  frame : FrameSize
  steps : Array Step
  failure? : Option Error

/-- A frame that is beyond a limit. -/
def overLimit (m : Method) (path : String) (value : Int64) (detail : String) : Error :=
  .report {
    phase := some .assemble
    kind := .overflow
    member := m.text
    path := [path]
    value := some (toString value.toInt)
    detail }

/-- The error of a frame that does not keep within limits. -/
def FrameSize.excess? (frame : FrameSize) (limits : Limits) (m : Method) : Option Error :=
  let maxStack := Limits.inForce limits.maxStack
  let maxLocals := Limits.inForce limits.maxLocals
  if maxStack < frame.maxStack then
    some (overLimit m "max_stack" frame.maxStack
      ("operand stack exceeds " ++ toString maxStack.toInt ++ " slots"))
  else if maxLocals < frame.maxLocals then
    some (overLimit m "max_locals" frame.maxLocals
      ("local variables exceed " ++ toString maxLocals.toInt ++ " slots"))
  else none

/-- The error of a body that is not valid. -/
def invalidBody (m : Method) : Error :=
  .report {
    phase := some .assemble
    kind := .illegalState
    member := m.text
    detail := "method body is not valid" }

/-- Emits the body of a method within limits. Of an invalid body nothing is emitted. -/
def emitBody (limits : Limits) (m : Method) (body : Manipulation) : EmittedBody :=
  if body.isValid then
    match body.emit with
    | (steps, .ok effect) =>
      let frame : FrameSize := ⟨effect, effect.peak, maxLocalsOf m steps, steps.size⟩
      ⟨frame, steps, frame.excess? limits m⟩
    | (steps, .error e) => ⟨.zero, steps, some e⟩
  else ⟨.zero, #[], some (invalidBody m)⟩

/-- A method with its recorded instructions. -/
structure MethodCode where
  method : Method
  frame : FrameSize
  recording : Recording
  /-- The code array; empty if none was laid down. -/
  code : Array UInt8
  /-- The constant pool of the code array. -/
  pool? : Option ConstantPool

/-- Assembles a method: its body is emitted and recorded, and laid down as a code array with a
constant pool of its own, unless that is to be skipped. -/
def assembleMethod (limits : Limits) (m : Method) (body : Manipulation) : Journaled MethodCode := do
  let emitted := emitBody limits m body
  match emitted.failure? with
  | some e => throw e
  | none => pure ()
  let frame := emitted.frame
  Journaled.note (.assembledMethod m.text frame.instructions frame.effect.net frame.maxStack
    frame.maxLocals)
  let recording := Recording.ofSteps emitted.steps
  if limits.skipEncode then return ⟨m, frame, recording, #[], none⟩
  match (encodeCode recording.instructions.toList).on .empty with
  | (.error e, _) => throw e
  | (.ok code, pool) =>
    Journaled.note (.encodedMethod m.text code.size pool.count)
    return ⟨m, frame, recording, code, some pool⟩

end OperandStack
