import OperandStack.Code.Encoding

/-!
# Consistency of constant pools

A consistent pool lists every entry once, gives it the index behind all slots of
the entries before it, stays within the indices of two bytes, and lists what an
entry refers to before the entry itself. Work on a pool is judged by what it does
to every consistent pool, whether it succeeds or fails: it keeps the pool
consistent, only appends, and a successful answer is the index of one known entry.
-/

namespace OperandStack

namespace Pooling

variable {α β : Type}

@[simp] theorem on_pure (a : α) (pool : ConstantPool) :
    (pure a : Pooling α).on pool = (.ok a, pool) := rfl

@[simp] theorem on_throw (e : Error) (pool : ConstantPool) :
    (throw e : Pooling α).on pool = (.error e, pool) := rfl

/-- Work in turn: the second part runs on the pool the first one leaves, unless that one failed. -/
theorem on_bind (work : Pooling α) (next : α → Pooling β) (pool : ConstantPool) :
    (work >>= next).on pool = match work.on pool with
      | (.ok a, after) => (next a).on after
      | (.error e, after) => (.error e, after) := by
  cases h : work.on pool with
  | mk answer after =>
    simp only [Pooling.on, ExceptT.run, StateT.run] at h
    simp only [Pooling.on, ExceptT.run, StateT.run, bind, ExceptT.bind, ExceptT.mk, StateT.bind,
      ExceptT.bindCont, h]
    cases answer <;> rfl

/-- A successful run splits into successful runs of both parts. -/
theorem on_bind_eq_ok {work : Pooling α} {next : α → Pooling β} {pool after : ConstantPool}
    {b : β} (h : (work >>= next).on pool = (.ok b, after)) :
    ∃ a middle, work.on pool = (.ok a, middle) ∧ (next a).on middle = (.ok b, after) := by
  rw [on_bind] at h
  cases hw : work.on pool with
  | mk answer middle =>
    rw [hw] at h
    cases answer with
    | error e => cases h
    | ok a => exact ⟨a, middle, rfl, h⟩

end Pooling

namespace PoolEntry

/-- The entries that an entry refers to. -/
def references : PoolEntry → List PoolEntry
  | classRef name => [utf8 name]
  | string text => [utf8 text]
  | nameAndType name descriptor => [utf8 name, utf8 descriptor]
  | fieldRef owner name descriptor => [classRef owner, nameAndType name descriptor]
  | methodRef owner name descriptor => [classRef owner, nameAndType name descriptor]
  | interfaceMethodRef owner name descriptor => [classRef owner, nameAndType name descriptor]
  | _ => []

theorem slots_pos (e : PoolEntry) : 0 < e.slots := by
  cases e <;> simp [slots]

/-- The slots of a list of entries. -/
def totalSlots (entries : List PoolEntry) : Nat := (entries.map slots).sum

@[simp] theorem totalSlots_nil : totalSlots [] = 0 := rfl

@[simp] theorem totalSlots_cons (e : PoolEntry) (rest : List PoolEntry) :
    totalSlots (e :: rest) = e.slots + totalSlots rest := by
  simp [totalSlots]

@[simp] theorem totalSlots_append (before after : List PoolEntry) :
    totalSlots (before ++ after) = totalSlots before + totalSlots after := by
  simp [totalSlots]

/-- The entry that starts at an index, if the first of the given entries starts at `start`. -/
def atIndex? (i : Nat) : (start : Nat) → List PoolEntry → Option PoolEntry
  | _, [] => none
  | start, e :: rest => if i = start then some e else atIndex? i (start + e.slots) rest

/-- Entries behind do not change what an index denotes. -/
theorem atIndex?_append {i start : Nat} {entries : List PoolEntry} {e : PoolEntry}
    (h : atIndex? i start entries = some e) (more : List PoolEntry) :
    atIndex? i start (entries ++ more) = some e := by
  induction entries generalizing start with
  | nil => cases h
  | cons head rest ih =>
    simp only [atIndex?, List.cons_append] at h ⊢
    split at h
    · next hi => rw [if_pos hi, h]
    · next hi => rw [if_neg hi, ih h]

/-- The index behind all slots of the entries before an entry denotes that entry. -/
theorem atIndex?_take {start k : Nat} {entries : List PoolEntry} {e : PoolEntry}
    (h : entries[k]? = some e) :
    atIndex? (start + totalSlots (entries.take k)) start entries = some e := by
  induction entries generalizing start k with
  | nil => cases h
  | cons head rest ih =>
    cases k with
    | zero =>
      simp only [List.getElem?_cons_zero] at h
      simp [atIndex?, h]
    | succ k =>
      simp only [List.getElem?_cons_succ] at h
      have hne : start + totalSlots ((head :: rest).take (k + 1)) ≠ start := by
        have hpos := head.slots_pos
        simp only [List.take_succ_cons, totalSlots_cons]
        omega
      rw [atIndex?, if_neg hne, List.take_succ_cons, totalSlots_cons, ← Nat.add_assoc]
      exact ih h

end PoolEntry

namespace ConstantPool

open PoolEntry (totalSlots)

/-- The index of the entry at a position: one more than the slots of the entries before it. -/
def startIndex (pool : ConstantPool) (k : Nat) : Nat :=
  1 + totalSlots (pool.entries.toList.take k)

/-- The entry that an index denotes. Long and double entries count for two indices. -/
def entryAt? (pool : ConstantPool) (i : Nat) : Option PoolEntry :=
  PoolEntry.atIndex? i 1 pool.entries.toList

/-- The representation invariant of a pool. -/
structure Consistent (pool : ConstantPool) : Prop where
  /-- The entries are pairwise distinct. -/
  nodup : pool.entries.toList.Nodup
  /-- The index map holds exactly the listed entries, each with the index of its position. -/
  index_iff : ∀ e i, pool.index[e]? = some i ↔
    ∃ k, pool.entries.toList[k]? = some e ∧ pool.startIndex k = i
  /-- The next free index stands behind all slots. -/
  count_eq : pool.count = 1 + totalSlots pool.entries.toList
  /-- All indices fit two bytes. -/
  count_le : pool.count ≤ 65536
  /-- What an entry refers to has a smaller index. -/
  references_before : ∀ k e, pool.entries.toList[k]? = some e → ∀ r ∈ e.references,
    ∃ j, pool.entries.toList[j]? = some r ∧ pool.startIndex j < pool.startIndex k

/-- A pool starts out consistent. -/
theorem empty_consistent : empty.Consistent where
  nodup := List.nodup_nil
  index_iff := by simp [empty]
  count_eq := rfl
  count_le := by decide
  references_before := by simp [empty]

/-- Positions in order have index ranges in order. -/
theorem startIndex_add_slots_le {pool : ConstantPool} {j k : Nat} {e : PoolEntry}
    (hj : pool.entries.toList[j]? = some e) (hjk : j < k) :
    pool.startIndex j + e.slots ≤ pool.startIndex k := by
  have hsplit : pool.entries.toList.take k =
      pool.entries.toList.take j ++ (pool.entries.toList.drop j).take (k - j) := by
    rw [← List.take_add]
    congr 1
    omega
  have hlt := (List.getElem?_eq_some_iff.mp hj).1
  have he := (List.getElem?_eq_some_iff.mp hj).2
  have hdrop : (pool.entries.toList.drop j).take (k - j) =
      e :: (pool.entries.toList.drop (j + 1)).take (k - j - 1) := by
    rw [List.drop_eq_getElem_cons hlt, he]
    obtain ⟨d, hd⟩ : ∃ d, k - j = d + 1 := ⟨k - j - 1, by omega⟩
    rw [hd, List.take_succ_cons, Nat.add_sub_cancel]
  simp only [startIndex, hsplit, hdrop, PoolEntry.totalSlots_append, PoolEntry.totalSlots_cons]
  omega

namespace Consistent

variable {pool : ConstantPool}

/-- The index map holds an entry exactly if the entry is listed. -/
theorem mem_iff (h : pool.Consistent) (e : PoolEntry) :
    e ∈ pool.entries.toList ↔ ∃ i, pool.index[e]? = some i := by
  constructor
  · intro he
    obtain ⟨k, hk⟩ := List.getElem?_of_mem he
    exact ⟨pool.startIndex k, (h.index_iff e _).mpr ⟨k, hk, rfl⟩⟩
  · rintro ⟨i, hi⟩
    obtain ⟨k, hk, _⟩ := (h.index_iff e i).mp hi
    exact List.mem_of_getElem? hk

/-- The whole index range of an entry lies between 1 and 65535. -/
theorem range_le (h : pool.Consistent) {k : Nat} {e : PoolEntry}
    (hk : pool.entries.toList[k]? = some e) :
    1 ≤ pool.startIndex k ∧ pool.startIndex k + e.slots ≤ 65536 := by
  have hlt := (List.getElem?_eq_some_iff.mp hk).1
  have hend := startIndex_add_slots_le hk hlt
  have hall : pool.startIndex pool.entries.toList.length = pool.count := by
    rw [startIndex, List.take_length, h.count_eq]
  have hle := h.count_le
  constructor
  · simp only [startIndex]
    omega
  · omega

/-- A mapped index denotes its entry. -/
theorem entryAt?_of_index (h : pool.Consistent) {e : PoolEntry} {i : Nat}
    (hi : pool.index[e]? = some i) : pool.entryAt? i = some e := by
  obtain ⟨k, hk, rfl⟩ := (h.index_iff e i).mp hi
  exact PoolEntry.atIndex?_take hk

/-- A mapped index fits two bytes. -/
theorem index_lt (h : pool.Consistent) {e : PoolEntry} {i : Nat}
    (hi : pool.index[e]? = some i) : i < 65536 := by
  obtain ⟨k, hk, rfl⟩ := (h.index_iff e i).mp hi
  have hrange := (h.range_le hk).2
  have hpos := e.slots_pos
  omega

end Consistent

end ConstantPool

end OperandStack
