import OperandStack.Proofs.Code.ArgumentSlots
import OperandStack.Proofs.Frame.Size
import OperandStack.Proofs.Invocation.Retargeting
import OperandStack.Proofs.Pool.Room

/-!
# Calls through interfaces

A call through an interface is laid down with the number of slots that it takes, receiver
included. The number has one byte. It is counted from the descriptor, which gives the slots of
the method, and then cut to that byte: the number is right exactly for methods of at most 255
slots, and calls of larger ones are laid down all the same.
-/

namespace OperandStack

open ConstantPool (classFileLength)

/-- A number is told by its lowest byte exactly if it is at most 255. -/
theorem toNat_ofNat_eq_iff (n : Nat) : (UInt8.ofNat n).toNat = n ↔ n ≤ 255 := by
  rw [UInt8.toNat_ofNat']
  omega

section

variable (owner name : String) {descriptor : String} (ofInterface : Bool) {slots : Nat}

/-- A call through an interface is laid down as soon as the pool has an index for its method: the
index, the slots cut to a byte, and a zero. -/
theorem encode_interfaceCall (hslots : argumentSlots descriptor = .ok slots) (number : Nat) :
    (Instruction.method .invokeinterface owner name descriptor ofInterface).encode number =
      (do
        let k ← ConstantPool.method owner name descriptor ofInterface
        return 0xb9 :: (Instruction.twoBytes k ++ [UInt8.ofNat (slots + 1), 0])) := by
  rw [Instruction.encode, hslots]
  rfl

/-- A single call through an interface takes five bytes, unless its method has no place in the
pool. -/
theorem encodeCode_interfaceCall (hslots : argumentSlots descriptor = .ok slots)
    (pool : ConstantPool) :
    (encodeCode [.method .invokeinterface owner name descriptor ofInterface]).on pool =
      match (ConstantPool.method owner name descriptor ofInterface).on pool with
      | (.ok k, after) =>
        (.ok #[0xb9, UInt8.ofNat (k / 256), UInt8.ofNat k, UInt8.ofNat (slots + 1), 0], after)
      | (.error e, after) => (.error e, after) := by
  simp only [encodeCode, Instruction.encodeFrom, encode_interfaceCall owner name ofInterface hslots,
    Pooling.on_bind]
  cases (ConstantPool.method owner name descriptor ofInterface).on pool with
  | mk answer after =>
    cases answer with
    | error e => rfl
    | ok k => rfl

variable {owner name}

/-- Whatever its slots, a call is laid down on the empty pool as long as its texts fit. -/
theorem exists_encodeCode_interfaceCall (hslots : argumentSlots descriptor = .ok slots)
    (howner : classFileLength owner ≤ 65535) (hname : classFileLength name ≤ 65535)
    (hdescriptor : classFileLength descriptor ≤ 65535) :
    ∃ high low pool, (encodeCode [.method .invokeinterface owner name descriptor ofInterface]).on
      .empty = (.ok #[0xb9, high, low, UInt8.ofNat (slots + 1), 0], pool) := by
  obtain ⟨k, pool, hrun, _⟩ := Pooling.needs_method ofInterface howner hname hdescriptor .empty
    (by decide)
  refine ⟨UInt8.ofNat (k / 256), UInt8.ofNat k, pool, ?_⟩
  rw [encodeCode_interfaceCall owner name ofInterface hslots, hrun]

end

namespace Invocation

variable {i j : Invocation} {m : Method}

/-- The only instruction of a call. -/
theorem instructions_invoke (i : Invocation) :
    (Recording.ofSteps (Manipulation.atom (.invoke i)).emit.1).instructions.toList =
      [.method i.mode.opcode i.target.name i.method.name i.method.descriptor
        i.target.isInterface] := by
  rw [Manipulation.emit, emitOnto_invoke, Recording.instructions_ofSteps]
  rfl

/-- A call through an interface has a receiver, so its slots are one more than the arguments'. -/
theorem slots_of_interface (hi : ofMethod m = .ok i) (hj : Relation.ReflTransGen Retargets i j)
    (hmode : j.mode = .interface) : j.method = m ∧ m.slots = m.parameterSlots + 1 := by
  obtain ⟨_, rfl⟩ := ofMethod_eq_ok_iff.mp hi
  obtain ⟨hwell, hmethod⟩ := (wellFormed_modeOf m).run hj
  have hstatic : ¬ j.method.isStatic = true := by
    rw [← hwell.static_iff, hmode]
    exact nofun
  refine ⟨hmethod, ?_⟩
  rw [hmethod, Bool.not_eq_true] at hstatic
  rw [Method.slots, Method.firstSlot, hstatic, Nat.add_comm]
  rfl

/-- A method of an interface that takes some number of longs. -/
def takingLongs (n : Nat) : Method :=
  ⟨.serializable, "take", .isPublic, .void, List.replicate n (.primitive .long)⟩

/-- The first call of such a method is through its interface. -/
theorem ofMethod_takingLongs (n : Nat) :
    ofMethod (takingLongs n) = .ok ⟨takingLongs n, .serializable, .interface⟩ := by
  -- neither depends on the parameters
  have hinitializer : (takingLongs 0).isInitializer = false := by decide
  have hmode : modeOf (takingLongs 0) = .interface := by decide
  refine ofMethod_eq_ok_iff.mpr ⟨hinitializer, ?_⟩
  rw [show modeOf (takingLongs n) = .interface from hmode]
  rfl

theorem isValue_takingLongs (n : Nat) : ∀ t ∈ (takingLongs n).parameters, t.IsValue := by
  intro t ht
  rw [List.eq_of_mem_replicate ht]
  exact ⟨rfl, trivial⟩

/-- Every long takes two slots, and the receiver one. -/
theorem slots_takingLongs (n : Nat) : (takingLongs n).slots = 2 * n + 1 := by
  have hlong : (TypeDesc.primitive .long).size.slots.toNat = 2 := rfl
  have hslots : (takingLongs n).parameterSlots = n * 2 := by
    simp only [takingLongs, Method.parameterSlots, Method.slotsOf, List.map_replicate, hlong,
      List.sum_replicate_nat]
  rw [(slots_of_interface (ofMethod_takingLongs n) .refl rfl).2, hslots, Nat.mul_comm]

/-- The descriptor has one letter for each long. -/
theorem length_descriptor_takingLongs (n : Nat) :
    (takingLongs n).descriptor.toList.length = n + 3 := by
  have hlong : (TypeDesc.primitive .long).descriptor.toList = ['J'] := rfl
  have hvoid : TypeDesc.void.descriptor.toList = ['V'] := rfl
  have hchars := Method.toList_descriptorText (takingLongs n).parameters .void
  rw [hvoid] at hchars
  have hlongs : ((takingLongs n).parameters.flatMap fun t => t.descriptor.toList).length = n := by
    simp only [takingLongs, List.length_flatMap, List.map_replicate, hlong, List.length_singleton,
      List.sum_replicate_nat, Nat.mul_one]
  calc
    _ = ('(' :: ((takingLongs n).parameters.flatMap (fun t => t.descriptor.toList) ++
          [')', 'V'])).length := congrArg List.length hchars
    _ = n + 3 := by rw [List.length_cons, List.length_append, hlongs]; rfl

/-- The code array of such a call, for all numbers of longs whose descriptor fits. -/
theorem exists_encodeCode_takingLongs {n : Nat} (hn : n ≤ 10000) :
    ∃ high low pool, (encodeCode (Recording.ofSteps (Manipulation.atom
      (.invoke ⟨takingLongs n, .serializable, .interface⟩)).emit.1).instructions.toList).on .empty =
        (.ok #[0xb9, high, low, UInt8.ofNat (takingLongs n).slots, 0], pool) := by
  have hslots := argumentSlots_descriptor (isValue_takingLongs n)
  have hdescriptor := ConstantPool.classFileLength_le (takingLongs n).descriptor
  rw [length_descriptor_takingLongs] at hdescriptor
  have hname : classFileLength (takingLongs n).name = 4 := by
    show classFileLength "take" = 4
    rw [ConstantPool.classFileLength_eq_sum]
    rfl
  have howner : classFileLength TypeDesc.serializable.name = 20 := by
    rw [ConstantPool.classFileLength_eq_sum]
    rfl
  rw [instructions_invoke, (slots_of_interface (ofMethod_takingLongs n) .refl rfl).2]
  dsimp only
  exact exists_encodeCode_interfaceCall _ hslots (by omega) (by omega) (by omega)

/-- Every call through an interface that is laid down has the index of its method, then its slots,
receiver included, cut to one byte, and a zero. The byte is the number of the slots exactly if there
are at most 255 of them. -/
theorem interfaceCall_count_exact (hparameters : ∀ t ∈ m.parameters, t.IsValue)
    (hi : ofMethod m = .ok i) (hj : Relation.ReflTransGen Retargets i j)
    (hmode : j.mode = .interface) {pool after : ConstantPool} {code : Array UInt8}
    (h : (encodeCode (Recording.ofSteps
      (Manipulation.atom (.invoke j)).emit.1).instructions.toList).on pool = (.ok code, after)) :
    ∃ k count,
      (ConstantPool.method j.target.name m.name m.descriptor j.target.isInterface).on pool =
        (.ok k, after) ∧
      code = #[0xb9, UInt8.ofNat (k / 256), UInt8.ofNat k, count, 0] ∧
      count.toNat = m.slots % 256 ∧ (count.toNat = m.slots ↔ m.slots ≤ 255) := by
  obtain ⟨hmethod, hslots⟩ := slots_of_interface hi hj hmode
  have hcount := argumentSlots_descriptor hparameters
  rw [instructions_invoke, hmode, hmethod, Mode.opcode, encodeCode_interfaceCall _ _ _ hcount] at h
  cases hrun : (ConstantPool.method j.target.name m.name m.descriptor j.target.isInterface).on
      pool with
  | mk answer middle =>
    rw [hrun] at h
    cases answer with
    | error e => cases h
    | ok k =>
      cases h
      refine ⟨k, UInt8.ofNat m.slots, rfl, by rw [hslots], ?_, toNat_ofNat_eq_iff m.slots⟩
      exact UInt8.toNat_ofNat'

/-- The largest number that a byte holds: 127 longs and the receiver. -/
theorem interfaceCall_count_exact_largest :
    (takingLongs 127).slots = 255 ∧ ∃ pool code after,
      (encodeCode (Recording.ofSteps (Manipulation.atom (.invoke
        ⟨takingLongs 127, .serializable, .interface⟩)).emit.1).instructions.toList).on pool =
          (.ok code, after) ∧
      ∃ high low count, code = #[0xb9, high, low, count, 0] ∧ count.toNat = 255 := by
  have hslots : (takingLongs 127).slots = 255 := slots_takingLongs 127
  obtain ⟨high, low, after, hrun⟩ := exists_encodeCode_takingLongs (n := 127) (by omega)
  obtain ⟨k, count, _, hcode, _, hexact⟩ := interfaceCall_count_exact (isValue_takingLongs 127)
    (ofMethod_takingLongs 127) .refl rfl hrun
  refine ⟨hslots, .empty, _, after, hrun, _, _, count, hcode, ?_⟩
  rw [← hslots]
  exact hexact.mpr (by omega)

/-- A call that takes 257 slots is laid down, with the number 1. -/
theorem interfaceCall_count_wraps :
    ofMethod (takingLongs 128) = .ok ⟨takingLongs 128, .serializable, .interface⟩ ∧
      (takingLongs 128).slots = 257 ∧ ∃ high low pool,
        (encodeCode (Recording.ofSteps (Manipulation.atom (.invoke
          ⟨takingLongs 128, .serializable, .interface⟩)).emit.1).instructions.toList).on .empty =
            (.ok #[0xb9, high, low, 1, 0], pool) := by
  have hslots : (takingLongs 128).slots = 257 := slots_takingLongs 128
  obtain ⟨high, low, pool, hrun⟩ := exists_encodeCode_takingLongs (n := 128) (by omega)
  rw [hslots] at hrun
  exact ⟨ofMethod_takingLongs 128, hslots, high, low, pool, hrun⟩

end Invocation

end OperandStack
