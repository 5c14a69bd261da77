import Mathlib.Data.List.Nodup
import Mathlib.Logic.Relation
import OperandStack.Proofs.Pool.Consistency

/-!
# Calls on a constant pool

Every call enters the entries that its own entry refers to, and then that entry.
All work on a pool is known by the entries it asks for in turn, and whatever holds
of single additions, answers and errors carries over to it. What has been entered
before a failure stays, so a failing call is held to the same account as a
successful one. The invariant therefore holds along every run of calls from the
empty pool, and an index keeps its meaning for good.
-/

namespace OperandStack

open ConstantPool

/-- Adding looks an entry up first, and appends it only while there is an index for it. -/
theorem Pooling.on_add (entry : PoolEntry) (pool : ConstantPool) :
    (add entry).on pool = match pool.index[entry]? with
      | some i => (.ok i, pool)
      | none =>
        if maxIndex < pool.count + entry.slots - 1 then
          (.error (.overflow (some .encode) ["constant_pool"]
            (toString (pool.count + entry.slots - 1)) "65535 entries"), pool)
        else (.ok pool.count, ⟨pool.entries.push entry, pool.index.insert entry pool.count,
          pool.count + entry.slots⟩) := by
  have hget : (add entry).on pool = (match pool.index[entry]? with
      | some i => return i
      | none =>
        let last := pool.count + entry.slots - 1
        if maxIndex < last then
          throw (.overflow (some .encode) ["constant_pool"] (toString last) "65535 entries")
        else do
          set (⟨pool.entries.push entry, pool.index.insert entry pool.count,
            pool.count + entry.slots⟩ : ConstantPool)
          return pool.count : Pooling Nat).on pool := rfl
  rw [hget]
  cases pool.index[entry]? with
  | some i => rfl
  | none =>
    dsimp only
    split <;> rfl

namespace ConstantPool.Consistent

variable {pool : ConstantPool}

/-- The positions of a pool keep their indices when an entry is appended. -/
private theorem startIndex_push (pool : ConstantPool) (entry : PoolEntry) (index count) {k : Nat}
    (hk : k ≤ pool.entries.toList.length) :
    (⟨pool.entries.push entry, index, count⟩ : ConstantPool).startIndex k = pool.startIndex k := by
  simp only [startIndex, Array.toList_push, List.take_append_of_le_length hk]

private theorem getElem?_push_iff (entries : Array PoolEntry) (entry e : PoolEntry) (k : Nat) :
    (entries.push entry).toList[k]? = some e ↔
      entries.toList[k]? = some e ∨ k = entries.toList.length ∧ entry = e := by
  rw [Array.toList_push]
  rcases Nat.lt_trichotomy k entries.toList.length with hk | hk | hk
  · have hne : k ≠ entries.toList.length := Nat.ne_of_lt hk
    simp only [List.getElem?_append_left hk, hne, false_and, or_false]
  · subst hk
    simp
  · have hne : k ≠ entries.toList.length := Nat.ne_of_gt hk
    have hend : (entries.toList ++ [entry]).length ≤ k := by
      rw [List.length_append]
      exact hk
    simp only [List.getElem?_eq_none hend, List.getElem?_eq_none (Nat.le_of_lt hk), hne,
      false_and, or_false, reduceCtorEq]

/-- Appending a new entry behind everything it refers to keeps a pool consistent. -/
theorem push (h : pool.Consistent) {entry : PoolEntry} (hnew : pool.index[entry]? = none)
    (hroom : pool.count + entry.slots ≤ 65536)
    (hrefs : ∀ r ∈ entry.references, r ∈ pool.entries.toList) :
    Consistent ⟨pool.entries.push entry, pool.index.insert entry pool.count,
      pool.count + entry.slots⟩ where
  nodup := by
    have hmem : entry ∉ pool.entries.toList := by
      intro hmem
      obtain ⟨i, hi⟩ := (h.mem_iff entry).mp hmem
      rw [hnew] at hi
      cases hi
    rw [Array.toList_push]
    exact List.nodup_append.mpr ⟨h.nodup, List.nodup_singleton _, fun a ha b hb =>
      List.mem_singleton.mp hb ▸ fun hab => hmem (hab ▸ ha)⟩
  index_iff := by
    intro e i
    have hstart : (⟨pool.entries.push entry, pool.index.insert entry pool.count,
        pool.count + entry.slots⟩ : ConstantPool).startIndex pool.entries.toList.length =
          pool.count := by
      rw [startIndex_push _ _ _ _ (Nat.le_refl _), startIndex, List.take_length, h.count_eq]
    simp only [Std.HashMap.getElem?_insert, getElem?_push_iff]
    by_cases he : entry = e
    · subst he
      simp only [beq_self_eq_true, if_true, Option.some.injEq]
      constructor
      · intro hi
        exact ⟨_, Or.inr ⟨rfl, trivial⟩, hstart.trans hi⟩
      · rintro ⟨k, hk | ⟨rfl, _⟩, rfl⟩
        · have hsome := (h.index_iff entry _).mpr ⟨k, hk, rfl⟩
          rw [hnew] at hsome
          cases hsome
        · exact hstart.symm
    · have hb : (entry == e) = false := by simpa using he
      simp only [hb, Bool.false_eq_true, if_false, he, and_false, or_false, h.index_iff e i]
      constructor
      · rintro ⟨k, hk, hi⟩
        have hlt := (List.getElem?_eq_some_iff.mp hk).1
        exact ⟨k, hk, (startIndex_push _ _ _ _ (Nat.le_of_lt hlt)).trans hi⟩
      · rintro ⟨k, hk, hi⟩
        have hlt := (List.getElem?_eq_some_iff.mp hk).1
        exact ⟨k, hk, (startIndex_push _ _ _ _ (Nat.le_of_lt hlt)).symm.trans hi⟩
  count_eq := by
    simp only [Array.toList_push, PoolEntry.totalSlots_append, PoolEntry.totalSlots_cons,
      PoolEntry.totalSlots_nil, h.count_eq]
    omega
  count_le := hroom
  references_before := by
    intro k e hk r hr
    rcases (getElem?_push_iff _ _ _ _).mp hk with hold | ⟨rfl, rfl⟩
    · obtain ⟨j, hj, hlt⟩ := h.references_before k e hold r hr
      refine ⟨j, (getElem?_push_iff _ _ _ _).mpr (Or.inl hj), ?_⟩
      rwa [startIndex_push _ _ _ _ (Nat.le_of_lt (List.getElem?_eq_some_iff.mp hj).1),
        startIndex_push _ _ _ _ (Nat.le_of_lt (List.getElem?_eq_some_iff.mp hold).1)]
    · obtain ⟨j, hj⟩ := List.getElem?_of_mem (hrefs r hr)
      have hjlt := (List.getElem?_eq_some_iff.mp hj).1
      refine ⟨j, (getElem?_push_iff _ _ _ _).mpr (Or.inl hj), ?_⟩
      have hpos := r.slots_pos
      have hend := startIndex_add_slots_le hj hjlt
      rw [startIndex_push _ _ _ _ (Nat.le_of_lt hjlt), startIndex_push _ _ _ _ (Nat.le_refl _)]
      omega

end ConstantPool.Consistent

namespace PoolEntry

/-- How far references lead on from an entry. -/
def rank : PoolEntry → Nat
  | classRef _ => 1
  | string _ => 1
  | nameAndType .. => 1
  | fieldRef .. => 2
  | methodRef .. => 2
  | interfaceMethodRef .. => 2
  | _ => 0

/-- What an entry refers to is of a lower rank, so references lead nowhere in circles. -/
theorem rank_lt_of_mem_references {e r : PoolEntry} (h : r ∈ e.references) : r.rank < e.rank := by
  cases e <;> simp only [references, List.mem_cons, List.not_mem_nil, or_false] at h
  case classRef | string =>
    subst h
    exact Nat.zero_lt_one
  all_goals rcases h with rfl | rfl <;> simp [rank]

/-- An entry behind everything it refers to, in the order in which it is entered. -/
def withReferences (e : PoolEntry) : List PoolEntry :=
  (e.references.attach.flatMap fun r => r.1.withReferences) ++ [e]
termination_by e.rank
decreasing_by exact rank_lt_of_mem_references r.2

/-- An entry comes behind all that it refers to, directly or not. -/
theorem withReferences_eq (e : PoolEntry) :
    e.withReferences = e.references.flatMap withReferences ++ [e] := by
  rw [withReferences, List.flatMap_subtype (g := withReferences) (fun _ _ => rfl)]
  simp

/-- What stands behind an entry is what references lead to. -/
theorem mem_withReferences {e r : PoolEntry} :
    r ∈ e.withReferences ↔ Relation.ReflTransGen (fun a b => b ∈ a.references) e r := by
  constructor
  · intro h
    induction e using withReferences.induct with
    | case1 e ih =>
      rw [withReferences_eq, List.mem_append, List.mem_singleton, List.mem_flatMap] at h
      rcases h with ⟨middle, hmiddle, hr⟩ | rfl
      · exact .head hmiddle (ih ⟨middle, hmiddle⟩ hr)
      · exact .refl
  · intro h
    induction h using Relation.ReflTransGen.head_induction_on with
    | refl =>
      rw [withReferences_eq]
      simp
    | head hfirst _ ih =>
      rw [withReferences_eq, List.mem_append, List.mem_flatMap]
      exact Or.inl ⟨_, hfirst, ih⟩

theorem self_mem_withReferences (e : PoolEntry) : e ∈ e.withReferences := by
  rw [withReferences_eq]
  exact List.mem_append_right _ List.mem_cons_self

end PoolEntry

namespace Pooling

variable {α β : Type} {needs wanted : List PoolEntry} {entry : PoolEntry}

/-- Work that asks for entries in turn, on pools where the needed ones are listed. All work on a
pool is put together from answers, errors and single additions. What an added entry refers to is
needed, or has been asked for before. -/
inductive Asks : {α : Type} → Pooling α → (needs wanted : List PoolEntry) → Prop where
  | pure {α : Type} {needs : List PoolEntry} (a : α) : Asks (pure a) needs []
  /-- A failure may be said to have asked for anything. -/
  | throw {α : Type} {needs wanted : List PoolEntry} (e : Error) :
      Asks (throw e : Pooling α) needs wanted
  | add {needs : List PoolEntry} {entry : PoolEntry} (h : entry.references ⊆ needs) :
      Asks (ConstantPool.add entry) needs [entry]
  | bind {α β : Type} {needs first second : List PoolEntry} {work : Pooling α}
      {next : α → Pooling β} (hwork : Asks work needs first)
      (hnext : ∀ a, Asks (next a) (needs ++ first) second) :
      Asks (work >>= next) needs (first ++ second)

/-- What follows may ask for nothing more. -/
theorem Asks.andThen {work : Pooling α} {next : α → Pooling β} (hwork : work.Asks needs wanted)
    (hnext : ∀ a, (next a).Asks (needs ++ wanted) []) : (work >>= next).Asks needs wanted := by
  have h := hwork.bind hnext
  rwa [List.append_nil] at h

/-- What does not look at the pool asks for nothing. -/
theorem asks_lift (answer : Except Error α) : (liftM answer : Pooling α).Asks needs [] := by
  cases answer with
  | error e => exact .throw e
  | ok a => exact .pure a

/-- An entry that refers to nothing is asked for alone. -/
theorem asks_add_plain (h : entry.references = []) :
    (add entry).Asks needs entry.withReferences := by
  rw [PoolEntry.withReferences_eq, h]
  apply Asks.add
  rw [h]
  exact List.nil_subset needs

theorem asks_utf8 (text : String) :
    (utf8 text).Asks needs (PoolEntry.utf8 text).withReferences := by
  unfold utf8
  dsimp only
  split
  · exact .throw _
  · exact asks_add_plain rfl

/-- Of an entry that refers to a single one, the single one is asked for first. -/
theorem asks_behind {first : PoolEntry} {work : Pooling α}
    (hwork : work.Asks needs first.withReferences) (hrefs : entry.references = [first]) :
    (work >>= fun _ => add entry).Asks needs entry.withReferences := by
  have hlist : entry.withReferences = first.withReferences ++ [entry] := by
    rw [PoolEntry.withReferences_eq, hrefs, List.flatMap_singleton]
  rw [hlist]
  refine hwork.bind fun _ => .add ?_
  rw [hrefs]
  simp [PoolEntry.self_mem_withReferences]

/-- Of an entry that refers to two, both are asked for first, in their order. -/
theorem asks_behind_both {first second : PoolEntry} {work : Pooling α} {more : Pooling β}
    (hwork : work.Asks needs first.withReferences)
    (hmore : more.Asks (needs ++ first.withReferences) second.withReferences)
    (hrefs : entry.references = [first, second]) :
    (work >>= fun _ => more >>= fun _ => add entry).Asks needs entry.withReferences := by
  have hlist : entry.withReferences =
      first.withReferences ++ (second.withReferences ++ [entry]) := by
    rw [PoolEntry.withReferences_eq, hrefs]
    simp
  rw [hlist]
  refine hwork.bind fun _ => hmore.bind fun _ => .add ?_
  rw [hrefs]
  simp [PoolEntry.self_mem_withReferences]

/-- A class asks for its name first. -/
theorem asks_classRef (name : String) :
    (classRef name).Asks needs (PoolEntry.classRef name).withReferences :=
  asks_behind (asks_utf8 name) rfl

/-- A name and type asks for both texts first. -/
theorem asks_nameAndType (name descriptor : String) :
    (nameAndType name descriptor).Asks needs (PoolEntry.nameAndType name descriptor).withReferences :=
  asks_behind_both (asks_utf8 name) (asks_utf8 descriptor) rfl

/-- A member is asked for behind its class and its name with descriptor. -/
theorem asks_member (hrefs : entry.references =
    [.classRef entry.owner, .nameAndType entry.name entry.descriptor]) :
    (member entry).Asks needs entry.withReferences :=
  asks_behind_both (asks_classRef entry.owner) (asks_nameAndType entry.name entry.descriptor) hrefs

/-- An entry is found, or refused by a full pool, or put at the end. -/
theorem on_add_cases (entry : PoolEntry) (pool : ConstantPool) :
    (∃ i, pool.index[entry]? = some i ∧ (add entry).on pool = (.ok i, pool)) ∨
      (∃ e, (add entry).on pool = (.error e, pool)) ∨
      pool.index[entry]? = none ∧ pool.count + entry.slots ≤ 65536 ∧
        (add entry).on pool = (.ok pool.count,
          ⟨pool.entries.push entry, pool.index.insert entry pool.count,
            pool.count + entry.slots⟩) := by
  rw [on_add]
  cases hold : pool.index[entry]? with
  | some i => exact Or.inl ⟨i, rfl, rfl⟩
  | none =>
    dsimp only
    split
    · exact Or.inr (Or.inl ⟨_, rfl⟩)
    · next hroom =>
      simp only [maxIndex] at hroom
      exact Or.inr (Or.inr ⟨rfl, by omega, rfl⟩)

/-- Whether a success of work answers with the index of an entry. -/
def Answers (work : Pooling Nat) (entry : PoolEntry) : Prop :=
  ∀ (pool : ConstantPool) (i : Nat), (work.on pool).1 = .ok i →
    (work.on pool).2.index[entry]? = some i

/-- The index that is handed out is that of the entry. -/
theorem answers_add (entry : PoolEntry) : (add entry).Answers entry := by
  intro pool i h
  rcases on_add_cases entry pool with ⟨j, hold, hrun⟩ | ⟨_, hrun⟩ | ⟨_, _, hrun⟩ <;>
    rw [hrun] at h ⊢ <;> cases h
  · exact hold
  · exact Std.HashMap.getElem?_insert_self

/-- The last part of work gives the answer. -/
theorem Answers.after {next : α → Pooling Nat} (h : ∀ a, (next a).Answers entry)
    (work : Pooling α) : (work >>= next).Answers entry := by
  intro pool i hi
  rw [on_bind] at hi ⊢
  cases hrun : work.on pool with
  | mk answer middle =>
    rw [hrun] at hi
    cases answer with
    | error e => cases hi
    | ok a => exact h a middle i hi

/-- A text that is not too long is answered with its index. -/
theorem answers_utf8 (text : String) : (utf8 text).Answers (.utf8 text) := by
  intro pool i hi
  unfold utf8 at hi ⊢
  dsimp only at hi ⊢
  split at hi
  · cases hi
  · next hlength =>
    rw [if_neg hlength]
    exact answers_add (.utf8 text) pool i hi

/-- A member is answered with its own index, not with one of the parts. -/
theorem answers_member (entry : PoolEntry) : (member entry).Answers entry :=
  .after (fun _ => .after (fun _ => answers_add entry) _) _

/-- Adding an entry keeps a pool consistent and only appends to it, if what the entry refers to is
listed. -/
theorem on_add_consistent {pool : ConstantPool} (h : pool.Consistent)
    (hrefs : entry.references ⊆ pool.entries.toList) :
    ((add entry).on pool).2.Consistent ∧
      pool.entries.toList <+: ((add entry).on pool).2.entries.toList := by
  rcases on_add_cases entry pool with ⟨_, _, hrun⟩ | ⟨_, hrun⟩ | ⟨hnew, hroom, hrun⟩ <;> rw [hrun]
  · exact ⟨h, List.prefix_refl _⟩
  · exact ⟨h, List.prefix_refl _⟩
  · refine ⟨h.push hnew hroom hrefs, ?_⟩
    simp only [Array.toList_push, List.prefix_append]

/-- On a consistent pool that lists what is needed, work keeps the pool consistent and only appends
to it, also when it fails. A success leaves everything listed that was asked for. -/
theorem Asks.on_consistent {work : Pooling α} (h : work.Asks needs wanted) {pool : ConstantPool}
    (hpool : pool.Consistent) (hneeds : needs ⊆ pool.entries.toList) :
    (work.on pool).2.Consistent ∧
      pool.entries.toList <+: (work.on pool).2.entries.toList ∧
      ∀ a, (work.on pool).1 = .ok a → wanted ⊆ (work.on pool).2.entries.toList := by
  induction h generalizing pool with
  | pure a => exact ⟨hpool, List.prefix_refl _, fun _ _ => List.nil_subset _⟩
  | throw e => exact ⟨hpool, List.prefix_refl _, fun a ha => by cases ha⟩
  | @add needs entry hrefs =>
    obtain ⟨hafter, hgrow⟩ := on_add_consistent hpool (List.Subset.trans hrefs hneeds)
    refine ⟨hafter, hgrow, fun i hi => ?_⟩
    rw [List.cons_subset]
    exact ⟨(hafter.mem_iff entry).mpr ⟨i, answers_add entry pool i hi⟩, List.nil_subset _⟩
  | @bind α β needs first second work next _ _ ihwork ihnext =>
    obtain ⟨hmiddle, hgrow, hfirst⟩ := ihwork hpool hneeds
    rw [on_bind]
    cases hrun : work.on pool with
    | mk answer middle =>
      rw [hrun] at hmiddle hgrow hfirst
      cases answer with
      | error e => exact ⟨hmiddle, hgrow, fun a ha => by cases ha⟩
      | ok a =>
        have hlisted := hfirst a rfl
        obtain ⟨hafter, hmore, hsecond⟩ :=
          ihnext a hmiddle (List.append_subset.mpr ⟨fun r hr => hgrow.subset (hneeds hr), hlisted⟩)
        refine ⟨hafter, hgrow.trans hmore, fun b hb => ?_⟩
        exact List.append_subset.mpr ⟨fun r hr => hmore.subset (hlisted hr), hsecond b hb⟩

end Pooling

/-- The entry that holds a literal. A text that was never said to be a literal has none. -/
def Constant.pooled? : Constant → Option PoolEntry
  | int value => some (.integer value)
  | long value => some (.long value)
  | float bits => some (.float bits)
  | double bits => some (.double bits)
  | string text => some (.string text)
  | classOf name => some (.classRef name)
  | untagged _ => none

/-- A literal asks for the entry that holds it. One without an entry is refused. -/
theorem Pooling.asks_literal {needs : List PoolEntry} (c : Constant) :
    (literal c).Asks needs (c.pooled?.elim [] PoolEntry.withReferences) := by
  cases c with
  | int value => exact asks_add_plain rfl
  | long value => exact asks_add_plain rfl
  | float bits => exact asks_add_plain rfl
  | double bits => exact asks_add_plain rfl
  | string text => exact asks_behind (asks_utf8 text) rfl
  | classOf name => exact asks_classRef name
  | untagged text => exact .throw _

/-- A literal is answered with the index of the entry that holds it. -/
theorem Pooling.answers_literal {c : Constant} {entry : PoolEntry} (hc : c.pooled? = some entry) :
    (literal c).Answers entry := by
  cases c <;> cases hc
  case string => exact .after (fun _ => answers_add _) _
  case classOf => exact .after (fun _ => answers_add _) _
  all_goals exact answers_add _

/-- A call on a pool. -/
inductive PoolCall where
  | utf8 (text : String)
  | classRef (name : String)
  | field (owner name descriptor : String)
  | method (owner name descriptor : String) (ofInterface : Bool)
  | literal (c : Constant)
  deriving DecidableEq, Repr

namespace PoolCall

/-- The work of a call. -/
def work : PoolCall → Pooling Nat
  | utf8 text => ConstantPool.utf8 text
  | classRef name => ConstantPool.classRef name
  | field owner name descriptor => ConstantPool.field owner name descriptor
  | method owner name descriptor ofInterface =>
    ConstantPool.method owner name descriptor ofInterface
  | literal c => ConstantPool.literal c

/-- The entry that a call asks for. -/
def target? : PoolCall → Option PoolEntry
  | utf8 text => some (.utf8 text)
  | classRef name => some (.classRef name)
  | field owner name descriptor => some (.fieldRef owner name descriptor)
  | method owner name descriptor ofInterface =>
    some (if ofInterface then .interfaceMethodRef owner name descriptor
      else .methodRef owner name descriptor)
  | literal c => c.pooled?

/-- A call asks for its entry behind everything that the entry refers to. -/
theorem asks_work (call : PoolCall) :
    call.work.Asks [] (call.target?.elim [] PoolEntry.withReferences) := by
  cases call with
  | utf8 text => exact Pooling.asks_utf8 text
  | classRef name => exact Pooling.asks_classRef name
  | field owner name descriptor => exact Pooling.asks_member rfl
  | method owner name descriptor ofInterface =>
    cases ofInterface <;> exact Pooling.asks_member rfl
  | literal c => exact Pooling.asks_literal c

/-- Every call is answered with the index of the entry it is about. -/
theorem answers_work (call : PoolCall) {entry : PoolEntry} (h : call.target? = some entry) :
    call.work.Answers entry := by
  cases call with
  | utf8 text => cases h; exact Pooling.answers_utf8 text
  | classRef name => cases h; exact .after (fun _ => Pooling.answers_add _) _
  | field owner name descriptor => cases h; exact Pooling.answers_member _
  | method owner name descriptor ofInterface => cases h; exact Pooling.answers_member _
  | literal c => exact Pooling.answers_literal h

/-- The only call without an entry fails and leaves the pool as it is. -/
theorem work_eq_throw {call : PoolCall} (h : call.target? = none) : ∃ e, call.work = throw e := by
  cases call with
  | literal c =>
    cases c with
    | untagged text => exact ⟨_, rfl⟩
    | _ => cases h
  | _ => cases h

/-- What one call does to a consistent pool, whether it succeeds or fails. -/
theorem step (call : PoolCall) {pool : ConstantPool} (h : pool.Consistent) :
    (call.work.on pool).2.Consistent ∧
      pool.entries.toList <+: (call.work.on pool).2.entries.toList ∧
      ∀ i, (call.work.on pool).1 = .ok i →
        ∃ entry, call.target? = some entry ∧ (call.work.on pool).2.index[entry]? = some i := by
  obtain ⟨hcons, hgrow, _⟩ := call.asks_work.on_consistent h (List.nil_subset _)
  refine ⟨hcons, hgrow, fun i hi => ?_⟩
  cases hentry : call.target? with
  | none =>
    obtain ⟨e, he⟩ := work_eq_throw hentry
    rw [he, Pooling.on_throw] at hi
    cases hi
  | some entry => exact ⟨entry, rfl, call.answers_work hentry pool i hi⟩

end PoolCall

namespace ConstantPool

/-- The pool after calls in order. A failed call leaves what it had entered before it failed. -/
def after (pool : ConstantPool) (calls : List PoolCall) : ConstantPool :=
  calls.foldl (fun pool call => (call.work.on pool).2) pool

theorem after_concat (pool : ConstantPool) (calls : List PoolCall) (call : PoolCall) :
    pool.after (calls ++ [call]) = (call.work.on (pool.after calls)).2 := by
  simp only [after, List.foldl_append, List.foldl_cons, List.foldl_nil]

/-- Every run of calls keeps a pool consistent. -/
theorem Consistent.after {pool : ConstantPool} (h : pool.Consistent) (calls : List PoolCall) :
    (pool.after calls).Consistent := by
  induction calls generalizing pool with
  | nil => exact h
  | cons call rest ih => exact ih (call.step h).1

/-- Appended entries do not change what an index denotes. -/
theorem entryAt?_mono {pool more : ConstantPool}
    (hgrow : pool.entries.toList <+: more.entries.toList) {i : Nat} {e : PoolEntry}
    (h : pool.entryAt? i = some e) : more.entryAt? i = some e := by
  obtain ⟨added, hadded⟩ := hgrow
  rw [entryAt?, ← hadded]
  exact PoolEntry.atIndex?_append h added

/-- After every call of every run from the empty pool, the pool is consistent, the index ranges of
its entries lie within 1 and 65535 and one behind the other, the call has only appended, every
index denotes what it denoted before, and the index that a successful call hands out denotes the
entry it asked for. -/
theorem representation_after_call (calls : List PoolCall) (call : PoolCall) :
    let before := empty.after calls
    let pool := empty.after (calls ++ [call])
    pool.Consistent ∧
      (∀ k e, pool.entries.toList[k]? = some e →
        1 ≤ pool.startIndex k ∧ pool.startIndex k + e.slots - 1 ≤ 65535) ∧
      (∀ j k e, j < k → pool.entries.toList[j]? = some e →
        pool.startIndex j + e.slots - 1 < pool.startIndex k) ∧
      before.entries.toList <+: pool.entries.toList ∧
      (∀ i e, before.entryAt? i = some e → pool.entryAt? i = some e) ∧
      ∀ i, (call.work.on before).1 = .ok i →
        ∃ e, call.target? = some e ∧ pool.entryAt? i = some e := by
  intro before pool
  have hbefore : before.Consistent := empty_consistent.after calls
  have hpool : pool = (call.work.on before).2 := after_concat empty calls call
  obtain ⟨hcons, hgrow, hanswer⟩ := call.step hbefore
  rw [← hpool] at hcons hgrow hanswer
  refine ⟨hcons, ?_, ?_, hgrow, ?_, ?_⟩
  · intro k e hk
    obtain ⟨hone, hend⟩ := hcons.range_le hk
    exact ⟨hone, by omega⟩
  · intro j k e hjk hj
    have hend := startIndex_add_slots_le hj hjk
    have hpos := e.slots_pos
    omega
  · intro i e he
    exact entryAt?_mono hgrow he
  · intro i hi
    obtain ⟨e, he, hindex⟩ := hanswer i hi
    exact ⟨e, he, hcons.entryAt?_of_index hindex⟩

end ConstantPool

end OperandStack
