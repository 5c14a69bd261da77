import OperandStack.Proofs.Machine.Descriptor

/-!
# What a step does to the stack and the local variables

The action of a step is read from what is emitted alone: from the byte of the opcode
by one table of neighbouring codes, and from the descriptor or the constant where
there is one. No action depends on the piece of a body that asked for the step.
-/

namespace OperandStack

/-- What a step does, by sorts of values. Lists of sorts start at the top of the stack. -/
inductive Action where
  /-- Pops values and pushes others. -/
  | exchange (pops pushes : List Computational)
  /-- Copies values of some slots to below the values of some more slots. -/
  | copy (slots under : Nat)
  /-- Pops values of some slots. -/
  | drop (slots : Nat)
  /-- Pushes a local variable. -/
  | load (c : Computational) (slot : Nat)
  /-- Pops into a local variable. -/
  | store (c : Computational) (slot : Nat)
  /-- Changes a local int variable. -/
  | increment (slot : Nat)
  /-- Leaves the method with a value, or with none. -/
  | leave (result : Option Computational)
  /-- Throws the top reference. -/
  | raise
  deriving DecidableEq, Repr

namespace Computational

/-- The sorts in the order in which families of opcodes list them. -/
def ordered : List Computational := [int, long, float, double, reference]

/-- The slots of several values. -/
def slotsOf (sorts : List Computational) : Nat := (sorts.map fun c => c.size.slots.toNat).sum

end Computational

namespace Action

/-- Pushes one value. -/
def push (c : Computational) : Action := exchange [] [c]

/-- Replaces one value by another. -/
def convert (source target : Computational) : Action := exchange [source] [target]

/-- The change of the depth of the stack. -/
def depthChange : Action → Int
  | exchange pops pushes => (Computational.slotsOf pushes : Int) - Computational.slotsOf pops
  | copy slots _ => slots
  | drop slots => -slots
  | load c _ => c.size.slots.toNat
  | store c _ => -c.size.slots.toNat
  | increment _ => 0
  | leave (some c) => -c.size.slots.toNat
  | leave none => 0
  | raise => -1

end Action

namespace Opcode

open Computational OperandStack.Action

/-- The element sorts in the order in which array accesses list them. -/
def elementSorts : List Computational := ordered ++ [int, int, int]

/-- The actions of the opcodes without operand by runs of neighbouring codes, each run after the
code of its first member. -/
def actionRuns : List (Nat × List Action) := [
  (0x01, [push reference, push int, push int, push int, push int, push int, push int, push int,
    push long, push long, push float, push float, push float, push double, push double]),
  (0x1a, ordered.flatMap fun c => (List.range 4).map (load c)),
  (0x2e, elementSorts.map fun c => exchange [int, reference] [c]),
  (0x3b, ordered.flatMap fun c => (List.range 4).map (store c)),
  (0x4f, elementSorts.map fun c => exchange [c, int, reference] []),
  (0x57, [drop 1, drop 2, copy 1 0, copy 1 1, copy 1 2, copy 2 0, copy 2 1, copy 2 2]),
  (0x85, [convert int long, convert int float, convert int double,
    convert long int, convert long float, convert long double,
    convert float int, convert float long, convert float double,
    convert double int, convert double long, convert double float,
    convert int int, convert int int, convert int int]),
  (0xac, ordered.map (leave ∘ some) ++ [leave none]),
  (0xbe, [convert reference int, raise])]

/-- The action of an opcode without operand. -/
def action? (op : Opcode) : Option Action :=
  let n := op.byte.toNat
  actionRuns.findSome? fun (first, actions) => if first ≤ n then actions[n - first]? else none

/-- The action of an indexed local access. -/
def accessAction? (op : Opcode) (slot : Nat) : Option Action :=
  let n := op.byte.toNat
  if iload.byte.toNat ≤ n ∧ n ≤ aload.byte.toNat then
    (ordered[n - iload.byte.toNat]?).map (load · slot)
  else if istore.byte.toNat ≤ n ∧ n ≤ astore.byte.toNat then
    (ordered[n - istore.byte.toNat]?).map (store · slot)
  else none

end Opcode

/-- The sort of a literal of the constant pool. -/
def Constant.sort? : Constant → Option Computational
  | int _ => some .int
  | long _ => some .long
  | float _ => some .float
  | double _ => some .double
  | string _ => some .reference
  | classOf _ => some .reference
  | untagged _ => none

namespace Step

open OperandStack.Action

/-- The number of the local variable at a slot. -/
def localNumber? (slot : Int64) : Option Nat := if slot < 0 then none else some slot.toInt.toNat

/-- The action of an access of a field with values of a sort. -/
def fieldAction? (op : Opcode) (c : Computational) : Option Action :=
  if op = .getstatic then some (push c)
  else if op = .putstatic then some (exchange [c] [])
  else if op = .getfield then some (convert .reference c)
  else if op = .putfield then some (exchange [c, .reference] [])
  else none

/-- The action of a call. All calls but static ones find the receiver below the arguments. -/
def callAction? (op : Opcode) (parameters : List Computational) (result : Option Computational) :
    Option Action :=
  if op = .invokestatic then some (exchange parameters.reverse result.toList)
  else if op = .invokevirtual ∨ op = .invokespecial ∨ op = .invokeinterface then
    some (exchange (parameters.reverse ++ [.reference]) result.toList)
  else none

/-- The action of a step. A step that no machine would run has none. -/
def action? : Step → Option Action
  | plain op => op.action?
  | immediate op _ =>
    if op = .bipush ∨ op = .sipush then some (push .int)
    else if op = .newarray then some (convert .int .reference)
    else none
  | access op slot => (localNumber? slot).bind op.accessAction?
  | increment slot _ => (localNumber? slot).map .increment
  | typed op _ =>
    if op = .new then some (push .reference)
    else if op = .anewarray then some (convert .int .reference)
    else if op = .checkcast then some (convert .reference .reference)
    else if op = .instanceof then some (convert .reference .int)
    else none
  | field op _ _ descriptor => (Descriptor.fieldSort? descriptor).bind (fieldAction? op)
  | method op _ _ descriptor _ =>
    (Descriptor.methodSorts? descriptor).bind fun (parameters, result) =>
      callAction? op parameters result
  | load constant => constant.sort?.map push

end Step

end OperandStack
