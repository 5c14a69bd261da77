import OperandStack.Proofs.Pool.Interning

/-!
# Code arrays on a shared pool

A pool may serve many code arrays and other calls in turn. Instructions that have been
laid down once are laid down as the same bytes ever after, and the pool does not change
then, whatever it was used for in between. A pool that has served a single code array
holds exactly what the instructions need, so that neither their order nor repetitions
make a difference to its entries or to its count.
-/

namespace OperandStack

open ConstantPool

/-- A use of a pool. -/
inductive PoolUse where
  /-- One call. -/
  | call (call : PoolCall)
  /-- A code array for instructions. -/
  | encode (instructions : List Instruction)
  deriving DecidableEq, Repr

namespace PoolUse

/-- The pool after a use. A failed use leaves what it had entered before it failed. -/
def apply (pool : ConstantPool) : PoolUse → ConstantPool
  | call c => (c.work.on pool).2
  | encode instructions => ((encodeCode instructions).on pool).2

/-- No use takes an index away or gives it to another entry. -/
theorem growsInto_apply (pool : ConstantPool) (use : PoolUse) : pool.GrowsInto (use.apply pool) := by
  cases use with
  | call c => exact c.asks_work.interns.grows pool
  | encode instructions => exact (asks_encodeCode instructions).interns.grows pool

end PoolUse

namespace ConstantPool

/-- The pool after uses in order. -/
def afterUses (pool : ConstantPool) (uses : List PoolUse) : ConstantPool :=
  uses.foldl PoolUse.apply pool

/-- Whatever else a pool is used for, it only grows. -/
theorem growsInto_afterUses (pool : ConstantPool) (uses : List PoolUse) :
    pool.GrowsInto (pool.afterUses uses) := by
  induction uses generalizing pool with
  | nil => exact .refl pool
  | cons use rest ih => exact (use.growsInto_apply pool).trans (ih (use.apply pool))

end ConstantPool

/-- Instructions that have been laid down on any pool are laid down as the same bytes again, after
any further uses of the pool, failed ones included, and the pool stays as it is. -/
theorem encodeCode_again {pool after : ConstantPool} {instructions : List Instruction}
    {code : Array UInt8} (h : (encodeCode instructions).on pool = (.ok code, after))
    (uses : List PoolUse) :
    (encodeCode instructions).on (after.afterUses uses) = (.ok code, after.afterUses uses) :=
  (asks_encodeCode instructions).interns.again h _ (after.growsInto_afterUses uses)

/-- A text and a class of one name, laid down again after a code array that fails behind a class
of its own, and a literal of two indices. -/
theorem encodeCode_again_text :
    let instructions : List Instruction := [.load .ldc (.string "A"), .typed .new "A"]
    let uses : List PoolUse :=
      [.encode [.typed .new "B", .unknown 9 .wide], .call (.literal (.long 7))]
    ∃ code after, (encodeCode instructions).on .empty = (.ok code, after) ∧
      (encodeCode instructions).on (after.afterUses uses) = (.ok code, after.afterUses uses) := by
  intro instructions uses
  have hlength : classFileLength "A" = 1 := by
    rw [classFileLength_eq_sum]
    rfl
  have hrun : ∃ code after, (encodeCode instructions).on .empty = (.ok code, after) := by
    simp [-bind_pure_comp, encodeCode, Instruction.encodeFrom, Instruction.encode, instructions,
      Pooling.on_bind, Pooling.on_add, utf8, classRef, literal, ConstantPool.empty, hlength,
      maxIndex, PoolEntry.slots, Constant.isWide, maxCodeLength, Instruction.twoBytes]
  obtain ⟨code, after, h⟩ := hrun
  exact ⟨code, after, h, encodeCode_again h uses⟩

/-- Whether an instruction needs an entry: the one it refers to, or one that references lead to
from there. -/
def Instruction.Needs (i : Instruction) (e : PoolEntry) : Prop :=
  ∃ target, i.entry? = some target ∧
    Relation.ReflTransGen (fun a b => b ∈ a.references) target e

/-- An instruction enters what it needs, and nothing else. -/
theorem Instruction.mem_entered {i : Instruction} {e : PoolEntry} : e ∈ i.entered ↔ i.Needs e := by
  unfold entered Needs
  cases i.entry? with
  | none => simp
  | some target => simp [PoolEntry.mem_withReferences]

/-- A code array on the empty pool leaves what its instructions ask for, each entry once, in the
order of first use. -/
theorem entries_of_encodeCode {instructions : List Instruction} {code : Array UInt8}
    {pool : ConstantPool} (h : (encodeCode instructions).on .empty = (.ok code, pool)) :
    pool.entries.toList = (instructions.flatMap Instruction.entered).foldl noteNew [] :=
  (asks_encodeCode instructions).interns.entries empty_consistent.indexed h

/-- The pool of a code array holds exactly what its instructions need. -/
theorem mem_entries_of_encodeCode {instructions : List Instruction} {code : Array UInt8}
    {pool : ConstantPool} (h : (encodeCode instructions).on .empty = (.ok code, pool))
    (e : PoolEntry) : e ∈ pool.entries.toList ↔ ∃ i ∈ instructions, i.Needs e := by
  rw [entries_of_encodeCode h, mem_foldl_noteNew, List.mem_flatMap]
  simp [Instruction.mem_entered]

/-- No entry of such a pool comes twice. -/
theorem nodup_entries_of_encodeCode {instructions : List Instruction} {code : Array UInt8}
    {pool : ConstantPool} (h : (encodeCode instructions).on .empty = (.ok code, pool)) :
    pool.entries.toList.Nodup := by
  rw [entries_of_encodeCode h]
  exact nodup_foldl_noteNew List.nodup_nil _

/-- The count of such a pool is one above the slots of its entries. -/
theorem count_of_encodeCode {instructions : List Instruction} {code : Array UInt8}
    {pool : ConstantPool} (h : (encodeCode instructions).on .empty = (.ok code, pool)) :
    pool.count = 1 + PoolEntry.totalSlots pool.entries.toList := by
  have hindexed := (asks_encodeCode instructions).interns.indexed .empty empty_consistent.indexed
  rw [h] at hindexed
  exact hindexed.count_eq

/-- Pools with the same entries in any order have the same slots. -/
theorem PoolEntry.totalSlots_perm {entries others : List PoolEntry} (h : entries.Perm others) :
    totalSlots entries = totalSlots others :=
  (h.map slots).sum_nat

/-- A pool that has served one code array holds each entry that the instructions need once, and
nothing else. So the pools of two code arrays with the same instructions, in any order and any
number, agree on their entries and on their count. -/
theorem encodeCode_entries_exact {instructions : List Instruction} {code : Array UInt8}
    {pool : ConstantPool} (h : (encodeCode instructions).on .empty = (.ok code, pool)) :
    pool.entries.toList.Nodup ∧
      (∀ e, e ∈ pool.entries.toList ↔ ∃ i ∈ instructions, i.Needs e) ∧
      ∀ (others : List Instruction) (otherCode : Array UInt8) (otherPool : ConstantPool),
        (∀ i, i ∈ others ↔ i ∈ instructions) →
        (encodeCode others).on .empty = (.ok otherCode, otherPool) →
        (∀ e, e ∈ otherPool.entries.toList ↔ e ∈ pool.entries.toList) ∧
          otherPool.count = pool.count := by
  refine ⟨nodup_entries_of_encodeCode h, mem_entries_of_encodeCode h, ?_⟩
  intro others otherCode otherPool hsame hother
  have hentries : ∀ e, e ∈ otherPool.entries.toList ↔ e ∈ pool.entries.toList := by
    intro e
    simp only [mem_entries_of_encodeCode h, mem_entries_of_encodeCode hother, hsame]
  have hperm : otherPool.entries.toList.Perm pool.entries.toList :=
    (List.perm_ext_iff_of_nodup (nodup_entries_of_encodeCode hother)
      (nodup_entries_of_encodeCode h)).mpr hentries
  refine ⟨hentries, ?_⟩
  rw [count_of_encodeCode h, count_of_encodeCode hother, PoolEntry.totalSlots_perm hperm]

/-- A class that is created and loaded, and a text of the same name. The second code array starts
with the text and creates the class twice. -/
theorem encodeCode_entries_exact_class :
    let instructions : List Instruction :=
      [.typed .new "A", .load .ldc (.classOf "A"), .load .ldc (.string "A")]
    let others : List Instruction := [.load .ldc (.string "A"), .typed .new "A",
      .load .ldc (.classOf "A"), .typed .new "A"]
    ∃ code pool otherCode otherPool,
      (encodeCode instructions).on .empty = (.ok code, pool) ∧
      (encodeCode others).on .empty = (.ok otherCode, otherPool) ∧
      .utf8 "A" ∈ pool.entries.toList ∧
      (∀ e, e ∈ otherPool.entries.toList ↔ e ∈ pool.entries.toList) ∧
      otherPool.count = pool.count := by
  intro instructions others
  have hlength : classFileLength "A" = 1 := by
    rw [classFileLength_eq_sum]
    rfl
  have hruns : (∃ code pool, (encodeCode instructions).on .empty = (.ok code, pool)) ∧
      ∃ code pool, (encodeCode others).on .empty = (.ok code, pool) := by
    simp [-bind_pure_comp, encodeCode, Instruction.encodeFrom, Instruction.encode, instructions,
      others, Pooling.on_bind, Pooling.on_add, utf8, classRef, literal, ConstantPool.empty, hlength,
      maxIndex, PoolEntry.slots, Constant.isWide, maxCodeLength, Instruction.twoBytes]
  obtain ⟨⟨code, pool, h⟩, otherCode, otherPool, h'⟩ := hruns
  obtain ⟨_, hneeds, hsame⟩ := encodeCode_entries_exact h
  have htext : PoolEntry.utf8 "A" ∈ pool.entries.toList :=
    (hneeds _).mpr ⟨.typed .new "A", .head _, _, rfl, .single (.head _)⟩
  have hmembers : ∀ i, i ∈ others ↔ i ∈ instructions := by
    intro i
    simp only [others, instructions, List.mem_cons, List.not_mem_nil, or_false]
    tauto
  exact ⟨code, pool, otherCode, otherPool, h, h', htext, hsame others _ _ hmembers h'⟩

end OperandStack
