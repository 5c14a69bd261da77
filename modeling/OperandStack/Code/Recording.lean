import OperandStack.Code.Instruction

/-!
# Recordings

A recording keeps the instructions of all steps in order, and the literals they
load, each once, in the order of their first use.
-/

namespace OperandStack

/-- Recorded instructions and the literals they load. -/
structure Recording where
  instructions : Array Instruction
  constants : Array Constant

namespace Recording

/-- Nothing recorded. -/
def empty : Recording := ⟨#[], #[]⟩

/-- The literals with one more, unless it is there already. -/
def noteConstant (constants : Array Constant) : Option Constant → Array Constant
  | none => constants
  | some c => if constants.contains c then constants else constants.push c

/-- Records one step. -/
def record (r : Recording) (s : Step) : Recording :=
  ⟨r.instructions.push s.instruction, noteConstant r.constants s.constant?⟩

/-- Records steps in order. -/
def recordAll (r : Recording) (steps : Array Step) : Recording := steps.foldl record r

/-- The recording of the given steps. -/
def ofSteps (steps : Array Step) : Recording := empty.recordAll steps

/-- How many instructions have an opcode. -/
def count (r : Recording) (op : Opcode) : Nat :=
  (r.instructions.toList.filter fun i => i.opcode = op).length

/-- The instructions as listings show them. -/
def listing (r : Recording) : List String := r.instructions.toList.map Instruction.text

/-- A number with blanks in front up to a width. -/
def padNumber (width n : Nat) : String :=
  let digits := toString n
  String.ofList (List.replicate (width - digits.length) ' ') ++ digits

/-- Lines with their numbers in front, each number padded to a width behind an indent. -/
def numbered (indent : String) (width : Nat) (lines : List String) : String :=
  String.join (lines.zipIdx.map fun (line, n) =>
    indent ++ padNumber width n ++ ": " ++ line ++ "\n")

/-- A numbered listing of the recorded instructions. -/
def text (r : Recording) : String := numbered "" 4 r.listing

end Recording

end OperandStack
