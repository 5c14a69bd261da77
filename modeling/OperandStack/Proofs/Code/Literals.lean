import Mathlib.Data.List.DropRight
import OperandStack.Proofs.Code.RoundTrip
import OperandStack.Proofs.Code.SharedPool

/-!
# Literals of recordings and of pools

A recording lists the literals that were loaded since it was last reset, and a pool
lists them as entries among those for classes and members. Both keep first uses only,
each by a look-up of its own, and they agree: the entries that hold literals are, in
the order of their indices, the recorded literals without the class literals, and every
class literal has one entry for its class.
-/

namespace OperandStack

/-- A call on a recording. -/
inductive RecordingCall where
  /-- One step is recorded. -/
  | step (s : Step)
  /-- Everything is forgotten. -/
  | reset
  deriving DecidableEq, Repr

namespace RecordingCall

/-- The step that a call records. -/
def step? : RecordingCall → Option Step
  | step s => some s
  | reset => none

/-- The steps that were recorded behind the last reset. -/
def stepsSinceReset (calls : List RecordingCall) : List Step :=
  (calls.rtakeWhile fun c => c.step?.isSome).filterMap step?

theorem stepsSinceReset_concat_step (calls : List RecordingCall) (s : Step) :
    stepsSinceReset (calls ++ [.step s]) = stepsSinceReset calls ++ [s] := by
  unfold stepsSinceReset
  rw [List.rtakeWhile_concat_pos _ _ _ rfl, List.filterMap_append]
  rfl

/-- A reset forgets all steps before it. -/
theorem stepsSinceReset_concat_reset (calls : List RecordingCall) :
    stepsSinceReset (calls ++ [.reset]) = [] := by
  unfold stepsSinceReset
  rw [List.rtakeWhile_concat_neg _ _ _ Bool.false_ne_true]
  rfl

end RecordingCall

namespace Recording

open RecordingCall

/-- The recording after a call. -/
def apply (r : Recording) : RecordingCall → Recording
  | .step s => r.record s
  | .reset => .empty

/-- The recording after calls in order. -/
def after (r : Recording) (calls : List RecordingCall) : Recording := calls.foldl apply r

theorem after_concat (r : Recording) (calls : List RecordingCall) (call : RecordingCall) :
    r.after (calls ++ [call]) = (r.after calls).apply call := by
  simp only [after, List.foldl_append, List.foldl_cons, List.foldl_nil]

/-- A recording holds the instructions since the last reset, in order. -/
theorem instructions_after (calls : List RecordingCall) :
    (empty.after calls).instructions.toList = (stepsSinceReset calls).map Step.instruction := by
  induction calls using List.reverseRecOn with
  | nil => rfl
  | append_singleton calls call ih =>
    rw [after_concat]
    cases call with
    | step s =>
      rw [stepsSinceReset_concat_step, List.map_append, ← ih]
      simp [apply, record]
    | reset =>
      rw [stepsSinceReset_concat_reset]
      rfl

/-- A literal is looked up before it is put at the end. -/
theorem toList_noteConstant (constants : Array Constant) (c? : Option Constant) :
    (noteConstant constants c?).toList = c?.toList.foldl noteNew constants.toList := by
  cases c? with
  | none => rfl
  | some c =>
    by_cases hc : c ∈ constants <;> simp [noteConstant, noteNew, hc]

/-- It holds the literals since then in the order of their first use. -/
theorem constants_after (calls : List RecordingCall) :
    (empty.after calls).constants.toList =
      ((stepsSinceReset calls).filterMap Step.constant?).foldl noteNew [] := by
  induction calls using List.reverseRecOn with
  | nil => rfl
  | append_singleton calls call ih =>
    rw [after_concat]
    cases call with
    | step s =>
      rw [stepsSinceReset_concat_step, List.filterMap_append, List.foldl_append, ← ih]
      simp only [apply, record, toList_noteConstant]
      cases hs : s.constant? <;> simp [hs]
    | reset =>
      rw [stepsSinceReset_concat_reset]
      rfl

end Recording

/-- Whether a literal is that of a class. -/
def Constant.isClass : Constant → Bool
  | classOf _ => true
  | _ => false

namespace PoolEntry

/-- Different entries hold different literals. -/
theorem eq_of_constant? {e e' : PoolEntry} {c : Constant} (h : e.constant? = some c)
    (h' : e'.constant? = some c) : e = e' := by
  cases e <;> cases h <;> cases e' <;> cases h' <;> rfl

/-- What an entry refers to holds no literal. -/
theorem filterMap_constant?_withReferences (e : PoolEntry) :
    e.withReferences.filterMap constant? = e.constant?.toList := by
  cases e <;> simp [withReferences_eq, references, constant?, List.filterMap_cons]

end PoolEntry

namespace Instruction

/-- The literal that an instruction holds in the pool. -/
def pooledLiteral? (i : Instruction) : Option Constant := i.entry?.bind PoolEntry.constant?

/-- An instruction enters one literal into the pool, or none. -/
theorem filterMap_constant?_entered (i : Instruction) :
    i.entered.filterMap PoolEntry.constant? = i.pooledLiteral?.toList := by
  unfold entered pooledLiteral?
  cases i.entry? with
  | none => rfl
  | some e => exact e.filterMap_constant?_withReferences

end Instruction

/-- The literals of a pool that has served one code array, in the order of their indices. -/
theorem literals_of_encodeCode {instructions : List Instruction} {code : Array UInt8}
    {pool : ConstantPool} (h : (encodeCode instructions).on .empty = (.ok code, pool)) :
    pool.entries.toList.filterMap PoolEntry.constant? =
      (instructions.filterMap Instruction.pooledLiteral?).foldl noteNew [] := by
  rw [entries_of_encodeCode h, filterMap_foldl_noteNew fun _ _ _ => PoolEntry.eq_of_constant?]
  have hflat : (instructions.flatMap Instruction.entered).filterMap PoolEntry.constant? =
      instructions.filterMap Instruction.pooledLiteral? := by
    simp only [List.filterMap_flatMap, List.filterMap_eq_flatMap_toList Instruction.pooledLiteral?,
      Instruction.filterMap_constant?_entered]
  rw [hflat]
  rfl

/-- A literal of no sort is never laid down. -/
theorem exists_pooled?_of_encode {number : Nat} {pool after : ConstantPool} {op : Opcode}
    {c : Constant} {bytes : List UInt8}
    (h : ((Instruction.load op c).encode number).on pool = (.ok bytes, after)) :
    ∃ e, c.pooled? = some e := by
  cases c with
  | untagged text => cases h
  | _ => exact ⟨_, rfl⟩

/-- The literal that a step loads is in the pool as it is, unless it is that of a class. -/
theorem Step.pooledLiteral?_instruction {s : Step}
    (h : ∀ c, s.constant? = some c → ∃ e, c.pooled? = some e) :
    s.instruction.pooledLiteral? = s.constant?.filter fun c => !c.isClass := by
  cases s with
  | load c =>
    obtain ⟨e, he⟩ := h c rfl
    cases c <;> cases he <;> rfl
  | method op owner name descriptor ofInterface => cases ofInterface <;> rfl
  | _ => rfl

/-- Only loads note literals. -/
theorem Step.eq_load_of_constant? {s : Step} {c : Constant} (h : s.constant? = some c) :
    s = .load c := by
  cases s with
  | load c' =>
    cases h
    rfl
  | _ => cases h

namespace Recording

open RecordingCall

/-- The recorded literals are the distinct ones loaded since the last reset, in the order of first
use. If the recorded instructions can be laid down on an empty pool, its entries with literals are
these, without those of classes and in the same order, and every recorded literal of a class has
exactly one entry for its class. -/
theorem constants_agree_with_pool (calls : List RecordingCall) :
    let r := empty.after calls
    r.constants.toList = ((stepsSinceReset calls).filterMap Step.constant?).eraseDups ∧
      ∀ code pool, (encodeCode r.instructions.toList).on .empty = (.ok code, pool) →
        pool.entries.toList.filterMap PoolEntry.constant? =
            r.constants.toList.filter (fun c => !c.isClass) ∧
          ∀ name, .classOf name ∈ r.constants.toList →
            pool.entries.toList.count (.classRef name) = 1 := by
  intro r
  have hconstants : r.constants.toList = _ := constants_after calls
  have hinstructions : r.instructions.toList = _ := instructions_after calls
  have hloaded : ∀ c, .load c ∈ stepsSinceReset calls →
      (Step.load c).instruction ∈ r.instructions.toList := by
    intro c hc
    rw [hinstructions]
    exact List.mem_map_of_mem hc
  refine ⟨hconstants.trans (foldl_noteNew_nil _), fun code pool h => ⟨?_, fun name hname => ?_⟩⟩
  · have hpooled : ∀ s ∈ stepsSinceReset calls, s.instruction.pooledLiteral? =
        s.constant?.filter fun c => !c.isClass := by
      intro s hs
      refine Step.pooledLiteral?_instruction fun c hc => ?_
      obtain rfl := Step.eq_load_of_constant? hc
      obtain ⟨_, _, _, _, hencode⟩ := Instruction.exists_encode_of_encodeCode h _ (hloaded c hs)
      exact exists_pooled?_of_encode hencode
    have hselect : r.instructions.toList.filterMap Instruction.pooledLiteral? =
        ((stepsSinceReset calls).filterMap Step.constant?).filter fun c => !c.isClass := by
      rw [hinstructions, List.filterMap_map, List.filter_filterMap]
      exact List.filterMap_congr hpooled
    rw [literals_of_encodeCode h, hselect, hconstants, filter_foldl_noteNew, List.filter_nil]
  · rw [hconstants, mem_foldl_noteNew, List.mem_filterMap] at hname
    obtain ⟨s, hs, hload⟩ := hname.resolve_left List.not_mem_nil
    obtain rfl := Step.eq_load_of_constant? hload
    have hentry : PoolEntry.classRef name ∈ pool.entries.toList :=
      (mem_entries_of_encodeCode h _).mpr ⟨_, hloaded _ hs, _, rfl, .refl⟩
    exact List.count_eq_one_of_mem (nodup_entries_of_encodeCode h) hentry

/-- A text loaded twice and a class that is also created, behind a literal that was reset. -/
theorem constants_agree_with_pool_class :
    let calls : List RecordingCall := [.step (.load (.int 1)), .reset,
      .step (.load (.string "A")), .step (.load (.classOf "A")), .step (.typed .new "A"),
      .step (.load (.string "A"))]
    let r := empty.after calls
    ∃ code pool, (encodeCode r.instructions.toList).on .empty = (.ok code, pool) ∧
      r.constants.toList = [.string "A", .classOf "A"] ∧
      pool.entries.toList.filterMap PoolEntry.constant? = [.string "A"] ∧
      pool.entries.toList.count (.classRef "A") = 1 := by
  intro calls r
  have hlength : ConstantPool.classFileLength "A" = 1 := by
    rw [ConstantPool.classFileLength_eq_sum]
    rfl
  have hinstructions : r.instructions.toList = [.load .ldc (.string "A"),
      .load .ldc (.classOf "A"), .typed .new "A", .load .ldc (.string "A")] := rfl
  have hconstants : r.constants.toList = [.string "A", .classOf "A"] := by
    simp [r, calls, after, apply, record, noteConstant, empty, Step.constant?]
  have hrun : ∃ code pool, (encodeCode r.instructions.toList).on .empty = (.ok code, pool) := by
    rw [hinstructions]
    simp [-bind_pure_comp, encodeCode, Instruction.encodeFrom, Instruction.encode,
      Pooling.on_bind, Pooling.on_add, ConstantPool.utf8, ConstantPool.classRef,
      ConstantPool.literal, ConstantPool.empty, hlength, ConstantPool.maxIndex, PoolEntry.slots,
      Constant.isWide, maxCodeLength, Instruction.twoBytes, Std.HashMap.getElem_insert]
  obtain ⟨code, pool, h⟩ := hrun
  obtain ⟨_, hpool⟩ := constants_agree_with_pool calls
  obtain ⟨hliterals, hclass⟩ := hpool code pool h
  have hlisted : Constant.classOf "A" ∈ r.constants.toList := by simp [hconstants]
  refine ⟨code, pool, h, hconstants, hliterals.trans ?_, hclass "A" hlisted⟩
  exact (congrArg _ hconstants).trans rfl

end Recording

end OperandStack
