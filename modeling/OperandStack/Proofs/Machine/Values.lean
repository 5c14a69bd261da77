import OperandStack.Proofs.Code.RoundTrip
import OperandStack.Proofs.Machine.Atoms

/-!
# The values that instructions push

The value of an instruction that pushes a constant is read from the instruction alone:
from the number of its opcode, from the number in the code, from the literal of the
pool, or from the field that holds the class of a primitive type. Floating-point values
are bit patterns. A literal is pushed as its own value by whatever means was chosen.
-/

namespace OperandStack

/-- A value on the stack, in a variable or in an array. -/
inductive Value where
  | int (value : Int32)
  | long (value : Int64)
  | float (bits : UInt32)
  | double (bits : UInt64)
  | null
  | text (value : String)
  /-- The class of an internal name. -/
  | classOf (name : String)
  /-- The class of a primitive type, or of `void`. -/
  | primitiveClass (p : Option Primitive)
  /-- The array at an address. -/
  | array (address : Nat)
  /-- Any other object. -/
  | object (number : Nat)
  deriving DecidableEq, Repr

namespace Value

/-- The sort of a value. -/
def sort : Value → Computational
  | int _ => .int
  | long _ => .long
  | float _ => .float
  | double _ => .double
  | _ => .reference

/-- The slots of a value. -/
def slots (v : Value) : Nat := v.sort.size.slots.toNat

end Value

/-- The value of a literal in the constant pool. -/
def Constant.value? : Constant → Option Value
  | int value => some (.int value)
  | long value => some (.long value)
  | float bits => some (.float bits)
  | double bits => some (.double bits)
  | string text => some (.text text)
  | classOf name => some (.classOf name)
  | untagged _ => none

namespace Opcode

/-- The values that opcodes stand for, in the order of their codes. The patterns are those of the
numbers zero, one and two, and of zero and one. -/
def constants : List Value :=
  [.null, .int (-1), .int 0, .int 1, .int 2, .int 3, .int 4, .int 5, .long 0, .long 1,
    .float 0, .float 0x3f800000, .float 0x40000000, .double 0, .double 0x3ff0000000000000]

/-- The value that an opcode stands for. -/
def value? (op : Opcode) : Option Value :=
  if op.byte = 0 then none else constants[op.byte.toNat - 1]?

end Opcode

/-- The classes with a field for the class of a primitive type or of `void`. -/
def primitiveClasses : List (String × Option Primitive) :=
  [("java/lang/Void", none), ("java/lang/Boolean", some .boolean), ("java/lang/Byte", some .byte),
    ("java/lang/Short", some .short), ("java/lang/Character", some .char),
    ("java/lang/Integer", some .int), ("java/lang/Long", some .long),
    ("java/lang/Float", some .float), ("java/lang/Double", some .double)]

namespace Instruction

/-- The value of an instruction that pushes a constant. A number in the code has to fit the bytes
that its opcode has for it. -/
def value? : Instruction → Option Value
  | plain op => op.value?
  | immediate op operand =>
    if op = .bipush ∧ -128 ≤ operand.toInt ∧ operand.toInt ≤ 127 ∨
        op = .sipush ∧ -32768 ≤ operand.toInt ∧ operand.toInt ≤ 32767 then some (.int operand)
    else none
  | load op constant =>
    if op = if constant.isWide then .ldc2W else .ldc then constant.value? else none
  | field op owner name descriptor =>
    if op = .getstatic ∧ name = "TYPE" ∧ descriptor = "Ljava/lang/Class;" then
      (primitiveClasses.lookup owner).map .primitiveClass
    else none
  | _ => none

end Instruction

/-- Whether an instruction can be laid down and pushes a value. -/
structure Value.PushedBy (v : Value) (i : Instruction) : Prop where
  wellFormed : i.WellFormed
  value_eq : i.value? = some v

namespace Literal

/-- The value of a literal. -/
def value : Literal → Value
  | int value => .int value
  | long value => .long value
  | float bits => .float bits
  | double bits => .double bits
  | null => .null
  | text value => .text value
  | typeOf t =>
    match t.kind with
    | .void => .primitiveClass none
    | .primitive p => .primitiveClass (some p)
    | _ => .classOf t.name

/-- The value of a literal is of the sort of the literal. -/
theorem sort_value (l : Literal) : l.value.sort = l.sort := by
  cases l with
  | typeOf t =>
    simp only [value]
    split <;> rfl
  | _ => rfl

/-- The slots of a literal are those of its value. -/
theorem slots_value (l : Literal) : l.value.slots = l.size.slots.toNat := by
  rw [Value.slots, sort_value]
  cases l <;> rfl

/-- The opcodes of small ints push the numbers from minus one on. -/
private theorem pushedBy_iconst : ∀ n ≤ 6,
    (Instruction.plain (Opcode.iconstM1.plus n)).WellFormed ∧
      (Instruction.plain (Opcode.iconstM1.plus n)).value? =
        some (.int (Int32.ofInt ((n : Int) - 1))) := by
  decide

/-- A literal of the pool is loaded as its value. -/
private theorem pushedBy_pooled {c : Constant} {v : Value} (h : c.value? = some v) :
    v.PushedBy (Push.pooled c).step.instruction := by
  have htag : c.tag ≠ 0 := by
    cases c with
    | untagged number => cases h
    | _ => simp [Constant.tag]
  exact ⟨⟨htag, rfl⟩, (if_pos rfl).trans h⟩

/-- The number of a small int is counted from the opcode for minus one. The other ints are in the
code as long as they fit. -/
private theorem pushedBy_pushInt (v : Int32) :
    Value.PushedBy (.int v) (pushInt v).step.instruction := by
  have hone : (1 : Int32).toInt = 1 := rfl
  unfold pushInt
  simp only [Int32.le_iff_toInt_le]
  split
  · next hsmall =>
    obtain ⟨hlow, hhigh⟩ : -1 ≤ v.toInt ∧ v.toInt ≤ 5 := hsmall
    have hsum : (v + 1).toInt = v.toInt + 1 := by
      rw [Int32.toInt_add, hone]
      exact Int.bmod_eq_of_le (by omega) (by omega)
    obtain ⟨hwell, hvalue⟩ := pushedBy_iconst (v + 1).toInt.toNat (by omega)
    have hback : ((v + 1).toInt.toNat : Int) - 1 = v.toInt := by omega
    rw [hback, Int32.ofInt_toInt] at hvalue
    exact ⟨hwell, hvalue⟩
  · split
    · next hbyte => exact ⟨Or.inl ⟨rfl, hbyte⟩, if_pos (Or.inl ⟨rfl, hbyte⟩)⟩
    · split
      · next hshort =>
        exact ⟨Or.inr (Or.inl ⟨rfl, hshort⟩), if_pos (Or.inr ⟨rfl, hshort⟩)⟩
      · exact pushedBy_pooled rfl

/-- Two longs have opcodes of their own, and all others are in the pool. -/
private theorem pushedBy_pushLong (v : Int64) :
    Value.PushedBy (.long v) (pushLong v).step.instruction := by
  unfold pushLong
  split
  · next h =>
    subst h
    exact ⟨by decide, by decide⟩
  · split
    · next h =>
      subst h
      exact ⟨by decide, by decide⟩
    · exact pushedBy_pooled rfl

/-- Three floats have opcodes of their own. They are compared by their bits, so that minus zero is
in the pool. -/
private theorem pushedBy_pushFloat (bits : UInt32) :
    Value.PushedBy (.float bits) (pushFloat bits).step.instruction := by
  unfold pushFloat
  split
  · next h =>
    subst h
    exact ⟨by decide, by decide⟩
  · split
    · next h =>
      subst h
      exact ⟨by decide, by decide⟩
    · split
      · next h =>
        subst h
        exact ⟨by decide, by decide⟩
      · exact pushedBy_pooled rfl

/-- So have two doubles. -/
private theorem pushedBy_pushDouble (bits : UInt64) :
    Value.PushedBy (.double bits) (pushDouble bits).step.instruction := by
  unfold pushDouble
  split
  · next h =>
    subst h
    exact ⟨by decide, by decide⟩
  · split
    · next h =>
      subst h
      exact ⟨by decide, by decide⟩
    · exact pushedBy_pooled rfl

/-- The class of a primitive type is in the field of the class that goes with it. -/
private theorem pushedBy_primitiveClass {owner : String} {p : Option Primitive}
    (h : primitiveClasses.lookup owner = some p) :
    Value.PushedBy (.primitiveClass p) (Push.primitiveClass owner).step.instruction where
  wellFormed := List.mem_cons_self
  value_eq := by
    simp only [Push.step, Step.instruction, Instruction.value?, and_self, if_true, h,
      Option.map_some]

/-- The classes of primitive types and of `void` are read from fields, and all others are in the
pool. -/
private theorem pushedBy_pushType (t : TypeDesc) :
    Value.PushedBy (typeOf t).value (pushType t).step.instruction := by
  simp only [pushType, value]
  cases t.kind with
  | void => exact pushedBy_primitiveClass (by decide)
  | primitive p => exact pushedBy_primitiveClass (by cases p <;> decide)
  | _ => exact pushedBy_pooled rfl

/-- A literal is pushed as its value, whatever the means. -/
theorem pushedBy_push (l : Literal) : l.value.PushedBy l.push.step.instruction := by
  cases l with
  | int value => exact pushedBy_pushInt value
  | long value => exact pushedBy_pushLong value
  | float bits => exact pushedBy_pushFloat bits
  | double bits => exact pushedBy_pushDouble bits
  | null => exact ⟨by decide, by decide⟩
  | text value => exact pushedBy_pooled rfl
  | typeOf t => exact pushedBy_pushType t

end Literal

end OperandStack
