import OperandStack.Code.Constant
import OperandStack.Error
import OperandStack.Number.Operations
import Std.Data.HashMap

/-!
# Constant pools

A pool hands out an index for everything that code refers to. Equal entries share
an index; longs and doubles take two. Indices start at one and end at 65535. An
entry follows the entries it refers to, and what was added before an error stays.
-/

namespace OperandStack

/-- An entry of a constant pool. -/
inductive PoolEntry where
  | utf8 (text : String)
  | integer (value : Int32)
  | float (bits : UInt32)
  | long (value : Int64)
  | double (bits : UInt64)
  | classRef (name : String)
  | string (text : String)
  | fieldRef (owner name descriptor : String)
  | methodRef (owner name descriptor : String)
  | interfaceMethodRef (owner name descriptor : String)
  | nameAndType (name descriptor : String)
  deriving DecidableEq, Repr, Hashable

namespace PoolEntry

/-- The number of the sort of an entry. -/
def tag : PoolEntry → Nat
  | utf8 _ => 1
  | integer _ => 3
  | float _ => 4
  | long _ => 5
  | double _ => 6
  | classRef _ => 7
  | string _ => 8
  | fieldRef .. => 9
  | methodRef .. => 10
  | interfaceMethodRef .. => 11
  | nameAndType .. => 12

/-- The indices that an entry takes. -/
def slots : PoolEntry → Nat
  | long _ => 2
  | double _ => 2
  | _ => 1

/-- The text, class name or member owner of an entry. -/
def owner : PoolEntry → String
  | utf8 text => text
  | classRef name => name
  | fieldRef owner .. => owner
  | methodRef owner .. => owner
  | interfaceMethodRef owner .. => owner
  | _ => ""

/-- The member name of an entry. -/
def name : PoolEntry → String
  | fieldRef _ name _ => name
  | methodRef _ name _ => name
  | interfaceMethodRef _ name _ => name
  | nameAndType name _ => name
  | _ => ""

/-- The member descriptor of an entry. -/
def descriptor : PoolEntry → String
  | fieldRef _ _ descriptor => descriptor
  | methodRef _ _ descriptor => descriptor
  | interfaceMethodRef _ _ descriptor => descriptor
  | nameAndType _ descriptor => descriptor
  | _ => ""

/-- The literal that an entry holds. Class entries hold none; they serve types and members too. -/
def constant? : PoolEntry → Option Constant
  | integer value => some (.int value)
  | float bits => some (.float bits)
  | long value => some (.long value)
  | double bits => some (.double bits)
  | string text => some (.string text)
  | _ => none

end PoolEntry

/-- A constant pool under construction. -/
structure ConstantPool where
  /-- The entries in the order of their indices. -/
  entries : Array PoolEntry
  /-- The index of each entry. -/
  index : Std.HashMap PoolEntry Nat
  /-- The next free index, one more than the highest one in use. -/
  count : Nat

/-- Work on a pool that may fail. The pool keeps what was done before a failure. -/
abbrev Pooling (α : Type) := ExceptT Error (StateM ConstantPool) α

namespace ConstantPool

/-- The pool without entries. -/
def empty : ConstantPool := ⟨#[], ∅, 1⟩

/-- The greatest index. -/
def maxIndex : Nat := 65535

/-- The index of an entry, which is added at the end if it is new. -/
def add (entry : PoolEntry) : Pooling Nat := do
  let pool ← get
  match pool.index[entry]? with
  | some i => return i
  | none =>
    let last := pool.count + entry.slots - 1
    if maxIndex < last then
      throw (.overflow (some .encode) ["constant_pool"] (toString last) "65535 entries")
    else
      set (⟨pool.entries.push entry, pool.index.insert entry pool.count,
        pool.count + entry.slots⟩ : ConstantPool)
      return pool.count

/-- The bytes of a character in class files: the zero character takes two, and characters beyond
the first 65536 are stored as two halves. -/
def classFileSize (c : Char) : Nat :=
  let n := c.toNat
  if n = 0 then 2
  else if n < 0x80 then 1
  else if n < 0x800 then 2
  else if n < 0x10000 then 3
  else 6

/-- The bytes of a text in class files. -/
def classFileLength (s : String) : Nat := s.foldl (fun n c => n + classFileSize c) 0

theorem classFileLength_eq_sum (s : String) :
    classFileLength s = (s.toList.map classFileSize).sum := by
  rw [classFileLength, String.foldl_eq_foldl_toList, List.sum_eq_foldl, List.foldl_map]

/-- The index of a text. -/
def utf8 (text : String) : Pooling Nat := do
  let length := classFileLength text
  if 65535 < length then
    throw (.overflow (some .encode) ["utf8"] (toString length) "65535 bytes")
  add (.utf8 text)

/-- The index of a class. -/
def classRef (name : String) : Pooling Nat := do
  let _ ← utf8 name
  add (.classRef name)

/-- The index of a name with a descriptor. -/
def nameAndType (name descriptor : String) : Pooling Nat := do
  let _ ← utf8 name
  let _ ← utf8 descriptor
  add (.nameAndType name descriptor)

/-- The index of an entry for a member, after its class and its name with descriptor. -/
def member (entry : PoolEntry) : Pooling Nat := do
  let _ ← classRef entry.owner
  let _ ← nameAndType entry.name entry.descriptor
  add entry

/-- The index of a field. -/
def field (owner name descriptor : String) : Pooling Nat :=
  member (.fieldRef owner name descriptor)

/-- The index of a method. -/
def method (owner name descriptor : String) (ofInterface : Bool) : Pooling Nat :=
  member (if ofInterface then .interfaceMethodRef owner name descriptor
    else .methodRef owner name descriptor)

/-- The index of a literal. -/
def literal : Constant → Pooling Nat
  | .int value => add (.integer value)
  | .float bits => add (.float bits)
  | .long value => add (.long value)
  | .double bits => add (.double bits)
  | .string text => do
    let _ ← utf8 text
    add (.string text)
  | .classOf name => classRef name
  | .untagged _ => throw (.of .encode .invalidInput "constant without tag")

end ConstantPool

end OperandStack
