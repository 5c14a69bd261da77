import OperandStack.Proofs.Code.SharedPool
import OperandStack.Proofs.Frame.Size
import OperandStack.Proofs.Machine.Values

/-!
# Literals in code arrays

Bytes that push a constant are evaluated by reading one instruction back with the help
of a pool and taking its value. A literal is laid down as bytes that evaluate to itself,
on every pool that uses can lead to from the empty one, and later uses of the pool do
not change that: all of them keep a pool consistent and its entries in place.
-/

namespace OperandStack

open ConstantPool

namespace ConstantPool

/-- What uses do to a consistent pool, failed ones included. -/
theorem Consistent.afterUses {pool : ConstantPool} (h : pool.Consistent) (uses : List PoolUse) :
    (pool.afterUses uses).Consistent ∧
      pool.entries.toList <+: (pool.afterUses uses).entries.toList := by
  induction uses generalizing pool with
  | nil => exact ⟨h, List.prefix_refl _⟩
  | cons use rest ih =>
    have hstep : (use.apply pool).Consistent ∧
        pool.entries.toList <+: (use.apply pool).entries.toList := by
      cases use with
      | call c =>
        obtain ⟨hafter, hgrow, _⟩ := c.step h
        exact ⟨hafter, hgrow⟩
      | encode instructions =>
        obtain ⟨hafter, hgrow, _⟩ :=
          (asks_encodeCode instructions).on_consistent h (List.nil_subset _)
        exact ⟨hafter, hgrow⟩
    obtain ⟨hrest, hgrow⟩ := ih hstep.1
    exact ⟨hrest, hstep.2.trans hgrow⟩

/-- The value that bytes push, if they are those of one instruction for a constant. -/
def evaluate? (pool : ConstantPool) (code : List UInt8) : Option Value :=
  match pool.decode? code with
  | some [i] => i.value?
  | _ => none

end ConstantPool

/-- The code array of an instruction for a constant evaluates to the constant, on the pool it leaves
and on every pool that grows from there. -/
theorem evaluate?_of_encodeCode {pool after : ConstantPool} (hpool : pool.Consistent)
    {i : Instruction} {v : Value} (hpush : v.PushedBy i) {code : Array UInt8}
    (h : (encodeCode [i]).on pool = (.ok code, after)) {more : ConstantPool}
    (hmore : after.entries.toList <+: more.entries.toList) :
    more.evaluate? code.toList = some v := by
  obtain ⟨bytes, middle, hbytes, hlength⟩ := Pooling.on_bind_eq_ok h
  have hwf : ∀ j ∈ [i], j.WellFormed := by
    intro j hj
    rw [List.mem_singleton.mp hj]
    exact hpush.wellFormed
  obtain ⟨tail, htail, _, hreads⟩ := Instruction.encodeFrom_reads hwf hpool hbytes
  dsimp only at hlength
  split at hlength
  · cases hlength
  · cases hlength
    rw [List.nil_append] at htail
    have hdecode : more.decode? code.toList = some [i] := by
      rw [decode?, htail]
      exact hreads more hmore _ (Nat.le_refl _)
    rw [evaluate?, hdecode]
    exact hpush.value_eq

namespace Literal

theorem steps_push (l : Literal) : (Manipulation.push l).emit.1 = #[l.push.step] := rfl

/-- A literal reports the slots of its value, and needs no more of them on the way. -/
theorem effect_push (l : Literal) :
    (Manipulation.push l).emit.2 = .ok ⟨Int64.ofNat l.value.slots, Int64.ofNat l.value.slots⟩ := by
  rw [slots_value]
  cases l <;> rfl

/-- A literal survives emission and encoding. Whatever a pool was used for before, the code array
that is laid down for a literal evaluates to exactly the value of the literal, and still does after
further uses of the pool. The value takes as many slots as are reported. -/
theorem evaluate?_push (l : Literal) (uses : List PoolUse) {code : Array UInt8}
    {pool : ConstantPool}
    (h : (encodeCode (Recording.ofSteps (Manipulation.push l).emit.1).instructions.toList).on
      (ConstantPool.empty.afterUses uses) = (.ok code, pool)) :
    pool.evaluate? code.toList = some l.value ∧
      (∀ later, (pool.afterUses later).evaluate? code.toList = some l.value) ∧
      (Manipulation.push l).emit.2 =
        .ok ⟨Int64.ofNat l.value.slots, Int64.ofNat l.value.slots⟩ := by
  rw [steps_push, Recording.instructions_ofSteps] at h
  change (encodeCode [l.push.step.instruction]).on _ = _ at h
  have hstart := (empty_consistent.afterUses uses).1
  -- Later uses need a consistent pool to start from.
  have hend := ((asks_encodeCode [l.push.step.instruction]).on_consistent hstart
    (List.nil_subset _)).1
  rw [h] at hend
  have heval : ∀ more : ConstantPool, pool.entries.toList <+: more.entries.toList →
      more.evaluate? code.toList = some l.value := fun more hmore =>
    evaluate?_of_encodeCode hstart l.pushedBy_push h hmore
  refine ⟨heval pool (List.prefix_refl _), ?_, l.effect_push⟩
  intro later
  exact heval _ (hend.afterUses later).2

/-- Negative zero, on a pool with a pattern that is no number and with what is left of a code array
that failed. -/
theorem evaluate?_push_negativeZero :
    let uses : List PoolUse :=
      [.call (.literal (.double 0x7ff8000000000001)), .encode [.typed .new "A", .unknown 9 .wide]]
    ∃ code pool,
      (encodeCode (Recording.ofSteps
        (Manipulation.push (.double 0x8000000000000000)).emit.1).instructions.toList).on
          (ConstantPool.empty.afterUses uses) = (.ok code, pool) ∧
        pool.evaluate? code.toList = some (.double 0x8000000000000000) ∧
        (∀ later, (pool.afterUses later).evaluate? code.toList =
          some (.double 0x8000000000000000)) ∧
        (Manipulation.push (.double 0x8000000000000000)).emit.2 = .ok ⟨2, 2⟩ := by
  intro uses
  have hlength : classFileLength "A" = 1 := by
    rw [classFileLength_eq_sum]
    rfl
  have hrun : ∃ code pool, (encodeCode (Recording.ofSteps
      (Manipulation.push (.double 0x8000000000000000)).emit.1).instructions.toList).on
        (ConstantPool.empty.afterUses uses) = (.ok code, pool) := by
    rw [steps_push, Recording.instructions_ofSteps]
    simp [-bind_pure_comp, encodeCode, Instruction.encodeFrom, Instruction.encode, uses,
      afterUses, PoolUse.apply, PoolCall.work, push, pushDouble, Push.step, Step.instruction,
      Pooling.on_bind, Pooling.on_add, utf8, classRef, literal, ConstantPool.empty, hlength,
      maxIndex, PoolEntry.slots, Constant.isWide, maxCodeLength, Instruction.twoBytes]
  obtain ⟨code, pool, h⟩ := hrun
  exact ⟨code, pool, h, evaluate?_push _ uses h⟩

end Literal

end OperandStack
