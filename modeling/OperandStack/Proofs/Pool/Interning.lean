import OperandStack.Proofs.Code.FirstUse
import OperandStack.Proofs.Pool.Calls

/-!
# What work on a pool enters

Work on a pool is known by the list of entries that it asks for in turn: a success
appends those that are new, in this order, and gives the same answer again, without
any change, on every pool that has grown from there. What an instruction asks for is
the entry it refers to, behind everything that this entry refers to.
-/

namespace OperandStack

namespace ConstantPool

variable {pool more : ConstantPool}

/-- Whether every entry keeps its index from one pool to another. -/
def GrowsInto (pool more : ConstantPool) : Prop :=
  ∀ (e : PoolEntry) (i : Nat), pool.index[e]? = some i → more.index[e]? = some i

theorem GrowsInto.refl (pool : ConstantPool) : pool.GrowsInto pool := fun _ _ h => h

theorem GrowsInto.trans {middle : ConstantPool} (h : pool.GrowsInto middle)
    (h' : middle.GrowsInto more) : pool.GrowsInto more :=
  fun e i hi => h' e i (h e i hi)

/-- The part of the invariant of a pool that does not depend on the order of its entries. -/
structure Indexed (pool : ConstantPool) : Prop where
  /-- The index map holds exactly the listed entries. -/
  mem_iff : ∀ e, e ∈ pool.entries.toList ↔ ∃ i, pool.index[e]? = some i
  /-- The next free index stands behind all slots. -/
  count_eq : pool.count = 1 + PoolEntry.totalSlots pool.entries.toList

theorem Consistent.indexed (h : pool.Consistent) : pool.Indexed := ⟨h.mem_iff, h.count_eq⟩

/-- Appending a new entry keeps the index map in step with the list. -/
theorem Indexed.push (h : pool.Indexed) (entry : PoolEntry) :
    Indexed ⟨pool.entries.push entry, pool.index.insert entry pool.count,
      pool.count + entry.slots⟩ where
  mem_iff e := by
    simp only [Array.toList_push, List.mem_append, List.mem_singleton,
      Std.HashMap.getElem?_insert, h.mem_iff]
    by_cases he : entry = e
    · subst he
      simp
    · have hb : (entry == e) = false := by simpa using he
      simp [hb, Ne.symm he]
  count_eq := by
    simp only [Array.toList_push, PoolEntry.totalSlots_append, PoolEntry.totalSlots_cons,
      PoolEntry.totalSlots_nil, h.count_eq]
    omega

end ConstantPool

open ConstantPool

namespace Pooling

variable {α β : Type} {wanted : List PoolEntry}

/-- What asking for entries in turn amounts to. -/
structure Interns (work : Pooling α) (wanted : List PoolEntry) : Prop where
  /-- Success or failure, no index is lost or changed. -/
  grows : ∀ pool : ConstantPool, pool.GrowsInto (work.on pool).2
  indexed : ∀ pool : ConstantPool, pool.Indexed → (work.on pool).2.Indexed
  /-- A success appends the entries that are new. -/
  entries : ∀ {pool after : ConstantPool} {a : α}, pool.Indexed → work.on pool = (.ok a, after) →
    after.entries.toList = wanted.foldl noteNew pool.entries.toList
  /-- A success is repeated on every pool that has grown from there, and changes nothing. -/
  again : ∀ {pool after : ConstantPool} {a : α}, work.on pool = (.ok a, after) →
    ∀ more : ConstantPool, after.GrowsInto more → work.on more = (.ok a, more)

theorem interns_pure (a : α) : Interns (pure a) [] where
  grows pool := .refl pool
  indexed _ h := h
  entries _ h := by
    cases h
    rfl
  again h more _ := by
    cases h
    rfl

/-- A failure may be said to have asked for anything. -/
theorem interns_throw (e : Error) : Interns (throw e : Pooling α) wanted where
  grows pool := .refl pool
  indexed _ h := h
  entries _ h := by cases h
  again h := by cases h

/-- One entry is added at the end, unless it is there already. -/
theorem interns_add (entry : PoolEntry) : Interns (add entry) [entry] where
  grows pool := by
    rcases on_add_cases entry pool with ⟨_, _, hrun⟩ | ⟨_, hrun⟩ | ⟨hnew, _, hrun⟩ <;> rw [hrun]
    · exact .refl pool
    · exact .refl pool
    · intro e i hi
      have hne : (entry == e) = false := by
        rw [beq_eq_false_iff_ne]
        rintro rfl
        rw [hnew] at hi
        cases hi
      rw [Std.HashMap.getElem?_insert, hne]
      exact hi
  indexed pool h := by
    rcases on_add_cases entry pool with ⟨_, _, hrun⟩ | ⟨_, hrun⟩ | ⟨_, _, hrun⟩ <;> rw [hrun]
    · exact h
    · exact h
    · exact h.push entry
  entries {pool after a} hpool h := by
    have hmem := hpool.mem_iff entry
    rw [List.foldl_cons, List.foldl_nil, noteNew]
    rcases on_add_cases entry pool with ⟨i, hold, hrun⟩ | ⟨_, hrun⟩ | ⟨hnew, _, hrun⟩ <;>
      rw [hrun] at h <;> cases h
    · rw [if_pos (hmem.mpr ⟨a, hold⟩)]
    · have hentry : entry ∉ pool.entries.toList := by simp [hmem, hnew]
      rw [if_neg hentry, Array.toList_push]
  again {pool after a} h more hmore := by
    have hafter := answers_add entry pool a (by rw [h])
    rw [h] at hafter
    rw [on_add, hmore entry a hafter]

/-- Work in turn asks for what its parts ask for. -/
theorem Interns.bind {work : Pooling α} {next : α → Pooling β} {wanted' : List PoolEntry}
    (hwork : work.Interns wanted) (hnext : ∀ a, (next a).Interns wanted') :
    (work >>= next).Interns (wanted ++ wanted') where
  grows pool := by
    have hfirst := hwork.grows pool
    rw [on_bind]
    cases hrun : work.on pool with
    | mk answer middle =>
      rw [hrun] at hfirst
      cases answer with
      | error e => exact hfirst
      | ok a => exact hfirst.trans ((hnext a).grows middle)
  indexed pool hpool := by
    have hfirst := hwork.indexed pool hpool
    rw [on_bind]
    cases hrun : work.on pool with
    | mk answer middle =>
      rw [hrun] at hfirst
      cases answer with
      | error e => exact hfirst
      | ok a => exact (hnext a).indexed middle hfirst
  entries {pool after b} hpool h := by
    obtain ⟨a, middle, hfirst, hrest⟩ := on_bind_eq_ok h
    have hmiddle : middle.Indexed := by
      have hkept := hwork.indexed pool hpool
      rwa [hfirst] at hkept
    rw [(hnext a).entries hmiddle hrest, hwork.entries hpool hfirst, List.foldl_append]
  again {pool after b} h more hmore := by
    obtain ⟨a, middle, hfirst, hrest⟩ := on_bind_eq_ok h
    have hgrow : middle.GrowsInto after := by
      have hkept := (hnext a).grows middle
      rwa [hrest] at hkept
    rw [on_bind, hwork.again hfirst more (hgrow.trans hmore)]
    exact (hnext a).again hrest more hmore

/-- What work asks for tells what it enters. -/
theorem Asks.interns {needs : List PoolEntry} {work : Pooling α} (h : work.Asks needs wanted) :
    work.Interns wanted := by
  induction h with
  | pure a => exact interns_pure a
  | throw e => exact interns_throw e
  | add => exact interns_add _
  | bind _ _ ihwork ihnext => exact ihwork.bind ihnext

end Pooling

namespace Instruction

/-- The pool entry that an instruction refers to. -/
def entry? : Instruction → Option PoolEntry
  | typed _ owner => some (.classRef owner)
  | field _ owner name descriptor => some (.fieldRef owner name descriptor)
  | method _ owner name descriptor ofInterface =>
    some (if ofInterface then .interfaceMethodRef owner name descriptor
      else .methodRef owner name descriptor)
  | load _ constant => constant.pooled?
  | _ => none

/-- The entries that an instruction asks for in turn. -/
def entered (i : Instruction) : List PoolEntry := i.entry?.elim [] PoolEntry.withReferences

variable {needs : List PoolEntry}

/-- Checking a slot asks for nothing. -/
theorem asks_checkSlot (slot : Int32) : (checkSlot slot).Asks needs [] := by
  unfold checkSlot
  split
  · exact .throw _
  · exact .pure ()

/-- What an instruction asks for is known before it is laid down. -/
theorem asks_encode (number : Nat) (i : Instruction) : (i.encode number).Asks needs i.entered := by
  cases i with
  | plain op => exact .pure _
  | immediate op operand =>
    rw [encode]
    split <;> exact .pure _
  | access op slot =>
    refine (asks_checkSlot slot).andThen fun _ => ?_
    split <;> exact .pure _
  | increment op slot delta =>
    refine (asks_checkSlot slot).andThen fun _ => ?_
    dsimp only
    split
    · exact .throw _
    · split <;> exact .pure _
  | typed op owner => exact (Pooling.asks_classRef owner).andThen fun _ => .pure _
  | field op owner name descriptor => exact (Pooling.asks_member rfl).andThen fun _ => .pure _
  | method op owner name descriptor ofInterface =>
    have hmember : (ConstantPool.method owner name descriptor ofInterface).Asks needs
        (PoolEntry.withReferences (if ofInterface then .interfaceMethodRef owner name descriptor
          else .methodRef owner name descriptor)) := by
      cases ofInterface <;> exact Pooling.asks_member rfl
    refine hmember.andThen fun _ => ?_
    split
    · exact (Pooling.asks_lift _).andThen fun _ => .pure _
    · exact .pure _
  | load op constant =>
    refine (Pooling.asks_literal constant).andThen fun _ => ?_
    split
    · exact .pure _
    · split <;> exact .pure _
  | unknown form op => exact .throw _

/-- Instructions ask for what they hold, one after another. -/
theorem asks_encodeFrom (number : Nat) (before : Array UInt8) (instructions : List Instruction) :
    (encodeFrom number before instructions).Asks needs (instructions.flatMap entered) := by
  induction instructions generalizing needs number before with
  | nil => exact .pure before
  | cons i rest ih =>
    rw [List.flatMap_cons]
    exact (asks_encode number i).bind fun _ => ih _ _

end Instruction

/-- A code array asks for what its instructions ask for in turn. -/
theorem asks_encodeCode (instructions : List Instruction) :
    (encodeCode instructions).Asks [] (instructions.flatMap Instruction.entered) := by
  refine (Instruction.asks_encodeFrom 0 #[] instructions).andThen fun bytes => ?_
  dsimp only
  split
  · exact .throw _
  · exact .pure bytes

end OperandStack
