import OperandStack.Proofs.Machine.Values

/-!
# A machine with arrays

The machine runs instructions on a stack of values and a list of arrays, in which the
position of an array is its address. It knows how constants are pushed, how a value is
copied and how arrays are created and written; opcodes and element codes are told apart
by their numbers, in tables of their own. All other instructions are left to a given
function, which may read and write a further part of the state.
-/

namespace OperandStack

namespace Component

/-- Whether an element may be a value: of the sort, and within the range of small integers. -/
def Holds : Component → Value → Prop
  | primitive .boolean, .int v => v.toInt = 0 ∨ v.toInt = 1
  | primitive .byte, .int v => -128 ≤ v.toInt ∧ v.toInt ≤ 127
  | primitive .short, .int v => -32768 ≤ v.toInt ∧ v.toInt ≤ 32767
  | primitive .char, .int v => 0 ≤ v.toInt ∧ v.toInt ≤ 65535
  | primitive .int, .int _ => True
  | primitive .long, .long _ => True
  | primitive .float, .float _ => True
  | primitive .double, .double _ => True
  | reference _, v => v.sort = .reference
  | _, _ => False

/-- What is kept of a value that is written into an array. Ints are cut to the range of the
elements. -/
def narrow? : Component → Value → Option Value
  | primitive .boolean, .int v => some (.int (Int32.ofInt (v.toInt % 2)))
  | primitive .byte, .int v => some (.int (Int32.ofInt (v.toInt.bmod 256)))
  | primitive .short, .int v => some (.int (Int32.ofInt (v.toInt.bmod 65536)))
  | primitive .char, .int v => some (.int (Int32.ofInt (v.toInt % 65536)))
  | primitive .int, .int v => some (.int v)
  | primitive .long, .long v => some (.long v)
  | primitive .float, .float v => some (.float v)
  | primitive .double, .double v => some (.double v)
  | reference _, v => if v.sort = .reference then some v else none
  | _, _ => none

private theorem ofInt_eq_self {v : Int32} {n : Int} (h : n = v.toInt) :
    some (Value.int (Int32.ofInt n)) = some (.int v) := by
  rw [h, Int32.ofInt_toInt]

/-- A value that an element may be is kept as it is. -/
theorem narrow?_of_holds {c : Component} {v : Value} (h : c.Holds v) : c.narrow? v = some v := by
  cases c with
  | reference name => exact if_pos h
  | primitive p =>
    cases v with
    | int v =>
      cases p <;> simp only [Holds] at h
      case boolean => exact ofInt_eq_self (by omega)
      case byte => exact ofInt_eq_self (Int.bmod_eq_of_le (by omega) (by omega))
      case short => exact ofInt_eq_self (Int.bmod_eq_of_le (by omega) (by omega))
      case char => exact ofInt_eq_self (by omega)
      case int => rfl
    | _ => cases p <;> first | rfl | exact absurd h id

/-- A value that an element may be takes the slots of an element. -/
theorem slots_of_holds {c : Component} {v : Value} (h : c.Holds v) :
    v.slots = c.size.slots.toNat := by
  cases c with
  | reference name =>
    have hsort : v.sort = .reference := h
    rw [Value.slots, hsort]
    rfl
  | primitive p => cases v <;> cases p <;> first | rfl | exact absurd h id

/-- What a new array is filled with. -/
def zero : Component → Value
  | primitive .long => .long 0
  | primitive .float => .float 0
  | primitive .double => .double 0
  | primitive _ => .int 0
  | reference _ => .null

/-- The number of the opcode that writes elements. Bytes and booleans share one. -/
def storeByte : Component → UInt8
  | primitive .int => 0x4f
  | primitive .long => 0x50
  | primitive .float => 0x51
  | primitive .double => 0x52
  | reference _ => 0x53
  | primitive .byte => 0x54
  | primitive .boolean => 0x54
  | primitive .char => 0x55
  | primitive .short => 0x56

/-- The opcodes that store elements are those of the instruction set. -/
theorem byte_storeOp (c : Component) : c.storeOp.byte = c.storeByte := by
  cases c with
  | primitive p => cases p <;> rfl
  | reference name => rfl

/-- The primitive sorts that array creation can ask for, by numbers from four on. -/
def numbered : List Primitive := [.boolean, .char, .float, .double, .byte, .short, .int, .long]

/-- The elements that a number stands for. -/
def ofCode? (code : Int32) : Option Component :=
  if 4 ≤ code.toInt then (numbered[code.toInt.toNat - 4]?).map .primitive else none

/-- Array creation names the sort of the elements by its number. -/
theorem ofCode?_elementCode (p : Primitive) : ofCode? (elementCode p) = some (.primitive p) := by
  cases p <;> decide

end Component

/-- An array, by what it may hold and what it holds. -/
structure ArrayObject where
  component : Component
  elements : List Value
  deriving DecidableEq, Repr

/-- The state of the machine, with a part that it does not look at. -/
structure ValueState (ω : Type) where
  /-- The values, the top one first. -/
  stack : List Value
  /-- The arrays, in the order of their addresses. -/
  arrays : List ArrayObject
  world : ω
  deriving DecidableEq, Repr

/-- What instructions do that the machine does not know. They may fail. -/
abbrev Outside (ω : Type) := Instruction → ValueState ω → Option (ValueState ω)

namespace ValueState

variable {ω : Type} (outside : Outside ω) (s : ValueState ω)

def push (v : Value) : ValueState ω := { s with stack := v :: s.stack }

@[simp] theorem stack_push (v : Value) : (s.push v).stack = v :: s.stack := rfl

@[simp] theorem arrays_push (v : Value) : (s.push v).arrays = s.arrays := rfl

/-- Copies the top value, which has to take one slot. -/
def copy? : Option (ValueState ω) :=
  match s.stack with
  | v :: _ => if v.slots = 1 then some (s.push v) else none
  | [] => none

/-- Replaces a length by a new array, which goes behind the others. -/
def create? (c : Component) : Option (ValueState ω) :=
  match s.stack with
  | .int n :: rest =>
    if 0 ≤ n.toInt then
      some ⟨.array s.arrays.length :: rest,
        s.arrays ++ [⟨c, List.replicate n.toInt.toNat c.zero⟩], s.world⟩
    else none
  | _ => none

/-- Takes a value, an index and an array, and writes the element at the index. The opcode has to be
the one for the array, and the index within its bounds. -/
def write? (op : Opcode) : Option (ValueState ω) :=
  match s.stack with
  | v :: .int i :: .array a :: rest => do
    let array ← s.arrays[a]?
    let kept ← array.component.narrow? v
    if op.byte = array.component.storeByte ∧ 0 ≤ i.toInt ∧ i.toInt < array.elements.length then
      let elements := array.elements.set i.toInt.toNat kept
      return ⟨rest, s.arrays.set a ⟨array.component, elements⟩, s.world⟩
    else none
  | _ => none

/-- Runs an instruction that is not for a constant. -/
def act? : Instruction → Option (ValueState ω)
  | .plain op =>
    if op = .dup then s.copy?
    else if 0x4f ≤ op.byte ∧ op.byte ≤ 0x56 then s.write? op
    else outside (.plain op) s
  | .immediate op code =>
    if op = .newarray then (Component.ofCode? code).bind s.create?
    else outside (.immediate op code) s
  | .typed op name =>
    if op = .anewarray then s.create? (.reference name) else outside (.typed op name) s
  | i => outside i s

/-- Runs one instruction. -/
def step? (i : Instruction) : Option (ValueState ω) :=
  match i.value? with
  | some v => some (s.push v)
  | none => s.act? outside i

/-- Runs instructions in order. -/
def run? (s : ValueState ω) : List Instruction → Option (ValueState ω)
  | [] => some s
  | i :: rest => (s.step? outside i).bind fun next => run? next rest

/-- A run through code in turn goes on where the first piece stops. -/
theorem run?_append (first second : List Instruction) :
    s.run? outside (first ++ second) =
      (s.run? outside first).bind fun next => next.run? outside second := by
  induction first generalizing s with
  | nil => rfl
  | cons i rest ih =>
    rw [List.cons_append, run?, run?, Option.bind_assoc]
    exact Option.bind_congr fun next _ => ih next

variable {outside s}

/-- A run that goes on. -/
theorem run?_trans {middle : ValueState ω} {first second : List Instruction}
    (h : s.run? outside first = some middle) :
    s.run? outside (first ++ second) = middle.run? outside second := by
  rw [run?_append, h]
  rfl

theorem run?_singleton (i : Instruction) : s.run? outside [i] = s.step? outside i := by
  exact Option.bind_fun_some _

/-- An instruction that pushes a value is known to the machine. -/
theorem step?_of_value {i : Instruction} {v : Value} (h : i.value? = some v) :
    s.step? outside i = some (s.push v) := by
  rw [step?, h]

/-- A literal pushes its value. -/
theorem run?_push (l : Literal) :
    s.run? outside [l.push.step.instruction] = some (s.push l.value) := by
  rw [run?_singleton, step?_of_value l.pushedBy_push.value_eq]

/-- Copying doubles a top value of one slot. -/
theorem run?_copy {v : Value} {rest : List Value} (hstack : s.stack = v :: rest)
    (hslots : v.slots = 1) : s.run? outside [.plain .dup] = some (s.push v) := by
  have hvalue : (Instruction.plain .dup).value? = none := by decide
  rw [run?_singleton, step?, hvalue]
  simp only [act?, if_true, copy?, hstack, hslots]

/-- The step that creates an array does so for the elements that it was made for. -/
theorem run?_create {c : Component} {n : Int32} {rest : List Value}
    (hstack : s.stack = .int n :: rest) (hn : 0 ≤ n.toInt) :
    s.run? outside [c.createStep.instruction] =
      some ⟨.array s.arrays.length :: rest,
        s.arrays ++ [⟨c, List.replicate n.toInt.toNat c.zero⟩], s.world⟩ := by
  have hcreate : s.create? c = some ⟨.array s.arrays.length :: rest,
      s.arrays ++ [⟨c, List.replicate n.toInt.toNat c.zero⟩], s.world⟩ := by
    simp only [create?, hstack, hn, if_true]
  rw [run?_singleton, ← hcreate]
  cases c with
  | reference name => rfl
  | primitive p =>
    have hvalue : (Component.primitive p).createStep.instruction.value? = none := by
      cases p <;> decide
    rw [step?, hvalue]
    simp only [Component.createStep, Step.instruction, act?, if_true,
      Component.ofCode?_elementCode, Option.bind_some]

/-- An element is written into the array at the address and nowhere else. -/
theorem run?_write {c : Component} {v : Value} {i : Nat} {rest : List Value}
    {before after : List ArrayObject} {first second : List Value} {old : Value}
    (hstack : s.stack = v :: .int (Int32.ofNat i) :: .array before.length :: rest)
    (harrays : s.arrays = before ++ ⟨c, first ++ old :: second⟩ :: after)
    (hi : first.length = i) (hrange : i < 2 ^ 31) (hv : c.Holds v) :
    s.run? outside [.plain c.storeOp] =
      some ⟨rest, before ++ ⟨c, first ++ v :: second⟩ :: after, s.world⟩ := by
  have hvalue : (Instruction.plain c.storeOp).value? = none := by
    cases c with
    | primitive p => cases p <;> decide
    | reference name => rfl
  have hop : c.storeOp ≠ .dup ∧ 0x4f ≤ c.storeOp.byte ∧ c.storeOp.byte ≤ 0x56 := by
    cases c with
    | primitive p => cases p <;> decide
    | reference name => simp only [Component.storeOp]; decide
  have hindex : (Int32.ofNat i).toInt = i := Int32.toInt_ofNat_of_lt hrange
  subst hi
  rw [run?_singleton, step?, hvalue]
  simp only [act?, hop, and_self, if_true, if_false]
  simp [write?, hstack, harrays, Component.narrow?_of_holds hv, c.byte_storeOp, hindex]

end ValueState

end OperandStack
