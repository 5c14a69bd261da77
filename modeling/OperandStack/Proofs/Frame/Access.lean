import OperandStack.Proofs.Code.RoundTrip
import OperandStack.Proofs.Emission.Built
import OperandStack.Proofs.Emission.Code

/-!
# Local variables that instructions reach

An instruction reads or writes a local variable of some sort in a compact form, in an
indexed form or as an increment. A step tells the end of its variable by arithmetic on
opcode numbers and on 64-bit slots. As long as that end is within the limit of the
format and the recorded slot can be laid down, it is the end of the variable of the
recorded instruction: a slot so great that the sum wraps has no such operand.
-/

namespace OperandStack

namespace Instruction

/-- Whether an instruction reads or writes the local variable of a sort at a slot. -/
inductive Accesses : Instruction → Computational → Int → Prop where
  | compactLoad (c : Computational) {n : Nat} (h : n < 4) :
      Accesses (.plain (c.compactLoadOp.plus n)) c n
  | compactStore (c : Computational) {n : Nat} (h : n < 4) :
      Accesses (.plain (c.compactStoreOp.plus n)) c n
  | load (c : Computational) (slot : Int32) : Accesses (.access c.loadOp slot) c slot.toInt
  | store (c : Computational) (slot : Int32) : Accesses (.access c.storeOp slot) c slot.toInt
  | increment (slot delta : Int32) : Accesses (.increment .iinc slot delta) .int slot.toInt

/-- Whether an instruction reads or writes a local variable that ends before a slot. -/
def ReachesTo (i : Instruction) (stop : Int) : Prop :=
  ∃ c slot, i.Accesses c slot ∧ stop = slot + c.size.slots.toNat

/-- Whether the slot of an instruction, if it has one, can be laid down. -/
def Addressable : Instruction → Prop
  | access _ slot => 0 ≤ slot.toInt ∧ slot.toInt ≤ 65535
  | increment _ slot _ => 0 ≤ slot.toInt ∧ slot.toInt ≤ 65535
  | _ => True

variable {number : Nat} {pool after : ConstantPool}

/-- An instruction that is laid down has a slot of two bytes at most. -/
theorem addressable_of_encode {i : Instruction} {bytes : List UInt8}
    (h : (i.encode number).on pool = (.ok bytes, after)) : i.Addressable := by
  cases i with
  | access op slot =>
    obtain ⟨_, _, hcheck, _⟩ := Pooling.on_bind_eq_ok h
    exact (checkSlot_eq_ok hcheck).2
  | increment op slot delta =>
    obtain ⟨_, _, hcheck, _⟩ := Pooling.on_bind_eq_ok h
    exact (checkSlot_eq_ok hcheck).2
  | _ => trivial

/-- A code array is laid down of instructions with slots in range only. -/
theorem addressable_of_encodeCode {instructions : List Instruction} {code : Array UInt8}
    (h : (encodeCode instructions).on pool = (.ok code, after)) :
    ∀ i ∈ instructions, i.Addressable := by
  intro i hi
  obtain ⟨_, _, _, _, hencode⟩ := exists_encode_of_encodeCode h i hi
  exact addressable_of_encode hencode

end Instruction

namespace Computational

/-- The place of a sort in the groups of compact opcodes. -/
def group : Computational → Nat
  | int => 0
  | long => 1
  | float => 2
  | double => 3
  | reference => 4

theorem group_lt (c : Computational) : c.group < 5 := by cases c <;> decide

theorem exists_group {g : Nat} (h : g < 5) : ∃ c, group c = g := by
  have hcases : ∀ g < 5, ∃ c ∈ [int, long, float, double, reference], group c = g := by decide
  obtain ⟨c, _, hc⟩ := hcases g h
  exact ⟨c, hc⟩

/-- The second and the fourth group are those of the wide sorts. -/
theorem slots_eq_group (c : Computational) :
    c.size.slots.toNat = if c.group = 1 ∨ c.group = 3 then 2 else 1 := by
  cases c <;> rfl

theorem slots_le (c : Computational) : c.size.slots.toNat ≤ 2 := by cases c <;> decide

/-- The compact loads lie in groups of four, one for each sort. -/
theorem toNat_compactLoadOp (c : Computational) :
    c.compactLoadOp.byte.toNat = Opcode.iload0.byte.toNat + 4 * c.group := by
  cases c <;> rfl

/-- So do the compact stores. -/
theorem toNat_compactStoreOp (c : Computational) :
    c.compactStoreOp.byte.toNat = Opcode.istore0.byte.toNat + 4 * c.group := by
  cases c <;> rfl

/-- An indexed load touches as many slots as its sort takes. -/
@[simp] theorem localWidth_loadOp (c : Computational) :
    c.loadOp.localWidth = c.size.slots.toNat := by
  cases c <;> rfl

/-- An indexed store touches as many slots as its sort takes. -/
@[simp] theorem localWidth_storeOp (c : Computational) :
    c.storeOp.localWidth = c.size.slots.toNat := by
  cases c <;> rfl

end Computational

namespace Opcode

/-- Opcodes are numbered, so a place further on is the next number. -/
theorem eq_plus_iff {op base : Opcode} {n : Nat} (h : base.byte.toNat + n < 256) :
    op = base.plus n ↔ op.byte.toNat = base.byte.toNat + n := by
  obtain ⟨byte⟩ := op
  have hsum : (base.byte + UInt8.ofNat n).toNat = base.byte.toNat + n := by
    rw [UInt8.toNat_add, UInt8.toNat_ofNat']
    omega
  rw [plus, Opcode.mk.injEq, ← UInt8.toNat_inj, hsum]

/-- A place in the groups of compact opcodes is the place of one sort, and one of its four slots. -/
theorem groupPlace_eq_iff {offset n width : Nat} (h : offset < 20) {P : Computational → Prop}
    (hP : ∀ c, n < 4 → (P c ↔ offset = 4 * c.group + n)) :
    some (offset % 4, if offset / 4 = 1 ∨ offset / 4 = 3 then 2 else 1) = some (n, width) ↔
      ∃ c : Computational, n < 4 ∧ width = c.size.slots.toNat ∧ P c := by
  rw [Option.some.injEq, Prod.mk.injEq]
  constructor
  · rintro ⟨rfl, rfl⟩
    obtain ⟨c, hc⟩ := Computational.exists_group (g := offset / 4) (by omega)
    exact ⟨c, by omega, by rw [c.slots_eq_group, hc], (hP c (by omega)).mpr (by omega)⟩
  · rintro ⟨c, hn, rfl, hc⟩
    have hoffset := (hP c hn).mp hc
    have hgroup : offset / 4 = c.group := by omega
    exact ⟨by omega, by rw [hgroup, c.slots_eq_group]⟩

/-- The arithmetic on compact opcodes finds exactly the variables that they access. -/
theorem compactLocal?_eq_some_iff {op : Opcode} {n width : Nat} :
    op.compactLocal? = some (n, width) ↔
      ∃ c : Computational, n < 4 ∧ width = c.size.slots.toNat ∧
        (op = c.compactLoadOp.plus n ∨ op = c.compactStoreOp.plus n) := by
  have hload : iload0.byte.toNat = 26 := rfl
  have hstore : istore0.byte.toNat = 59 := rfl
  have hops : ∀ c : Computational, n < 4 → c.group < 5 ∧
      ((op = c.compactLoadOp.plus n ∨ op = c.compactStoreOp.plus n) ↔
        op.byte.toNat = 26 + (4 * c.group + n) ∨ op.byte.toNat = 59 + (4 * c.group + n)) := by
    intro c hn
    have hgroup := c.group_lt
    refine ⟨hgroup, ?_⟩
    rw [eq_plus_iff (by rw [c.toNat_compactLoadOp]; omega),
      eq_plus_iff (by rw [c.toNat_compactStoreOp]; omega), c.toNat_compactLoadOp,
      c.toNat_compactStoreOp, hload, hstore, Nat.add_assoc, Nat.add_assoc]
  simp only [compactLocal?, hload, hstore]
  split
  · refine groupPlace_eq_iff (by omega) fun c hn => ?_
    obtain ⟨hgroup, hop⟩ := hops c hn
    rw [hop]
    omega
  · split
    · refine groupPlace_eq_iff (by omega) fun c hn => ?_
      obtain ⟨hgroup, hop⟩ := hops c hn
      rw [hop]
      omega
    · simp only [reduceCtorEq, false_iff, not_exists, not_and]
      intro c hn _
      obtain ⟨hgroup, hop⟩ := hops c hn
      rw [hop]
      omega

/-- The end of a compact access is far from wrapping. -/
theorem toInt_compactEnd {op : Opcode} {n width : Nat} (h : op.compactLocal? = some (n, width)) :
    (Int64.ofNat n + Int64.ofNat width).toInt = n + width := by
  obtain ⟨c, hn, rfl, _⟩ := compactLocal?_eq_some_iff.mp h
  have hwidth := c.slots_le
  rw [Int64.toInt_add, Int64.toInt_ofNat_of_lt (by omega), Int64.toInt_ofNat_of_lt (by omega)]
  exact Int.bmod_eq_of_le (by omega) (by omega)

theorem localWidth_le (op : Opcode) : op.localWidth ≤ 2 := by
  unfold localWidth
  split <;> decide

end Opcode

/-- The end of an access is exact as long as it is in the range of 64 bits. -/
theorem toInt_end_of_lt {slot : Int64} {width : Nat} (hslot : 0 ≤ slot)
    (hfits : slot.toInt + width < 2 ^ 63) :
    (slot + Int64.ofNat width).toInt = slot.toInt + width := by
  have hnonneg : 0 ≤ slot.toInt := Int64.le_iff_toInt_le.mp hslot
  have hofNat : (Int64.ofNat width).toInt = width := Int64.toInt_ofNat_of_lt (by omega)
  rw [Int64.toInt_add, hofNat]
  exact Int.bmod_eq_of_le (by omega) (by omega)

/-- Beyond that range it wraps to a negative number. -/
theorem toInt_end_neg {slot : Int64} {width : Nat} (hwidth : width ≤ 2)
    (hwraps : 2 ^ 63 ≤ slot.toInt + width) : (slot + Int64.ofNat width).toInt < 0 := by
  have hlt := slot.toInt_lt
  have hofNat : (Int64.ofNat width).toInt = width := Int64.toInt_ofNat_of_lt (by omega)
  rw [Int64.toInt_add, hofNat]
  simp only [Int.bmod]
  omega

/-- The slots of accesses whose end wraps are the last ones there are, and the 32 bits that are
recorded of them are negative. -/
theorem toInt_toInt32_neg {slot : Int64} {width : Nat} (hwidth : width ≤ 2)
    (hwraps : 2 ^ 63 ≤ slot.toInt + width) : slot.toInt32.toInt < 0 := by
  have hlt := slot.toInt_lt
  rw [Int64.toInt_toInt32]
  simp only [Int.bmod]
  omega

/-- The end of an indexed access at a slot there is: if the sum wraps, the 32 bits that are recorded
of the slot are negative. -/
theorem toInt_end_eq {slot : Int64} {width : Nat} (hwidth : width ≤ 2) (hslot : 0 ≤ slot)
    (hcode : 0 ≤ slot.toInt32.toInt) (hbound : (slot + Int64.ofNat width).toInt ≤ 65535) :
    (slot + Int64.ofNat width).toInt = slot.toInt32.toInt + width := by
  have hnonneg : 0 ≤ slot.toInt := Int64.le_iff_toInt_le.mp hslot
  have hfits : slot.toInt + width < 2 ^ 63 := by
    by_contra hwraps
    have hnegative := toInt_toInt32_neg hwidth (Int.not_lt.mp hwraps)
    omega
  rw [toInt_end_of_lt hslot hfits] at hbound ⊢
  rw [Int64.toInt_toInt32, Int.bmod_eq_of_le (by omega) (by omega)]

namespace Step

/-- Whether a step accesses local variables by the opcodes for it, at a slot there is. -/
def Addressed : Step → Prop
  | access op slot => 0 ≤ slot ∧ ∃ c : Computational, op = c.loadOp ∨ op = c.storeOp
  | increment slot _ => 0 ≤ slot
  | _ => True

/-- A compact opcode reaches as far as the arithmetic on it says. -/
theorem reachesTo_plain_iff {op : Opcode} {stop : Int} :
    (Instruction.plain op).ReachesTo stop ↔
      ∃ n width, op.compactLocal? = some (n, width) ∧ stop = n + width := by
  simp only [Opcode.compactLocal?_eq_some_iff]
  constructor
  · rintro ⟨c, slot, haccess, rfl⟩
    cases haccess with
    | compactLoad _ h => exact ⟨_, _, ⟨c, h, rfl, Or.inl rfl⟩, rfl⟩
    | compactStore _ h => exact ⟨_, _, ⟨c, h, rfl, Or.inr rfl⟩, rfl⟩
  · rintro ⟨n, width, ⟨c, hn, rfl, rfl | rfl⟩, rfl⟩
    · exact ⟨c, n, .compactLoad c hn, rfl⟩
    · exact ⟨c, n, .compactStore c hn, rfl⟩

/-- A step with slots that can be laid down, and with its end within the limit of the format, is
recorded as an instruction that reaches as far. -/
theorem reachesTo_iff {s : Step} (hs : s.Addressed) (hcode : s.instruction.Addressable)
    (hbound : ∀ stop, s.localEnd? = some stop → stop.toInt ≤ 65535) (stop : Int) :
    s.instruction.ReachesTo stop ↔ ∃ e, s.localEnd? = some e ∧ e.toInt = stop := by
  cases s with
  | plain op =>
    rw [instruction, reachesTo_plain_iff]
    constructor
    · rintro ⟨n, width, hop, rfl⟩
      refine ⟨Int64.ofNat n + Int64.ofNat width, ?_, Opcode.toInt_compactEnd hop⟩
      rw [localEnd?, hop]
      rfl
    · rintro ⟨e, he, rfl⟩
      obtain ⟨⟨n, width⟩, hop, rfl⟩ := Option.map_eq_some_iff.mp he
      exact ⟨n, width, hop, Opcode.toInt_compactEnd hop⟩
  | access op slot =>
    have hend := toInt_end_eq op.localWidth_le hs.1 hcode.1 (hbound _ rfl)
    constructor
    · rintro ⟨c, n, haccess, rfl⟩
      refine ⟨_, rfl, ?_⟩
      rw [hend]
      cases haccess with
      | load => rw [Computational.localWidth_loadOp]
      | store => rw [Computational.localWidth_storeOp]
    · rintro ⟨e, he, rfl⟩
      cases he
      rw [hend]
      obtain ⟨_, c, rfl | rfl⟩ := hs
      · exact ⟨c, _, .load c _, by rw [Computational.localWidth_loadOp]⟩
      · exact ⟨c, _, .store c _, by rw [Computational.localWidth_storeOp]⟩
  | increment slot delta =>
    have hend := toInt_end_eq (Nat.le_succ 1) hs hcode.1 (hbound _ rfl)
    constructor
    · rintro ⟨c, n, haccess, rfl⟩
      cases haccess
      exact ⟨_, rfl, hend⟩
    · rintro ⟨e, he, rfl⟩
      cases he
      exact ⟨.int, _, .increment _ delta, hend⟩
  | _ =>
    constructor
    · rintro ⟨c, n, haccess, _⟩
      cases haccess
    · rintro ⟨e, he, _⟩
      cases he

end Step

namespace Atom

/-- Whether the local variable of an atom, if it has one, is at a slot there is. -/
def AtSlot : Atom → Prop
  | load _ slot => 0 ≤ slot
  | store _ slot => 0 ≤ slot
  | increment slot _ => 0 ≤ slot
  | _ => True

/-- Regular atoms name no negative slots. -/
theorem Regular.atSlot {a : Atom} (h : a.Regular) : a.AtSlot := by
  cases a <;> first | exact h | trivial

/-- A local access ends behind its variable, in the compact and in the indexed form. -/
theorem localEnd?_localStep {compact indexed : Opcode} {slot : Int64} {width : Nat}
    (hslot : 0 ≤ slot) (hcompact : ∀ n < 4, (compact.plus n).compactLocal? = some (n, width))
    (hindexed : indexed.localWidth = width) :
    (localStep compact indexed slot).localEnd? = some (slot + Int64.ofNat width) := by
  unfold localStep
  split
  · next hfour =>
    have hnonneg : 0 ≤ slot.toInt := Int64.le_iff_toInt_le.mp hslot
    have hlt : slot.toInt < 4 := Int64.lt_iff_toInt_lt.mp hfour
    have hofNat : Int64.ofNat slot.toInt.toNat = slot := by
      rw [← Int64.ofInt_eq_ofNat, Int.toNat_of_nonneg hnonneg, Int64.ofInt_toInt]
    simp only [Step.localEnd?, hcompact _ (show slot.toInt.toNat < 4 by omega), Option.map_some,
      hofNat]
  · rw [Step.localEnd?, hindexed]

/-- Whether an atom loads, stores or increments the local variable of a sort at a slot. -/
inductive Accesses : Atom → Computational → Int64 → Prop where
  | load (c : Computational) (slot : Int64) : Accesses (.load c slot) c slot
  | store (c : Computational) (slot : Int64) : Accesses (.store c slot) c slot
  | increment (slot : Int64) (delta : Int32) : Accesses (.increment slot delta) .int slot

/-- An access emits a step that ends behind its variable. -/
theorem Accesses.exists_step {a : Atom} {c : Computational} {slot : Int64}
    (h : a.Accesses c slot) (hslot : 0 ≤ slot) :
    ∃ s, a.step? = some s ∧ s.localEnd? = some (slot + Int64.ofNat c.size.slots.toNat) := by
  cases h with
  | load =>
    refine ⟨_, rfl, localEnd?_localStep hslot ?_ c.localWidth_loadOp⟩
    intro n hn
    exact Opcode.compactLocal?_eq_some_iff.mpr ⟨c, hn, rfl, Or.inl rfl⟩
  | store =>
    refine ⟨_, rfl, localEnd?_localStep hslot ?_ c.localWidth_storeOp⟩
    intro n hn
    exact Opcode.compactLocal?_eq_some_iff.mpr ⟨c, hn, rfl, Or.inr rfl⟩
  | increment => exact ⟨_, rfl, rfl⟩

/-- An access whose end wraps cannot be laid down. -/
theorem Accesses.not_addressable {a : Atom} {c : Computational} {slot : Int64}
    (h : a.Accesses c slot) (hwraps : 2 ^ 63 ≤ slot.toInt + c.size.slots.toNat) {s : Step}
    (hs : a.step? = some s) : ¬ s.instruction.Addressable := by
  have hwidth := c.slots_le
  have hnegative := toInt_toInt32_neg hwidth hwraps
  have hindexed : ¬ slot < 4 := by
    intro hfour
    have hlt : slot.toInt < 4 := Int64.lt_iff_toInt_lt.mp hfour
    omega
  cases h <;> cases hs
  case increment => exact fun haddressable => Int.not_lt.mpr haddressable.1 hnegative
  all_goals
    rw [localStep, if_neg hindexed]
    exact fun haddressable => Int.not_lt.mpr haddressable.1 hnegative

/-- An access is addressed in the compact and in the indexed form. -/
theorem addressed_localStep {compact indexed : Opcode} {slot : Int64} (hslot : 0 ≤ slot)
    (hop : ∃ c : Computational, indexed = c.loadOp ∨ indexed = c.storeOp) :
    (localStep compact indexed slot).Addressed := by
  unfold localStep
  split
  · trivial
  · exact ⟨hslot, hop⟩

/-- The step of an atom is addressed if the atom is at a slot there is. Only three kinds of atoms
name one. -/
theorem addressed_of_step? {a : Atom} (h : a.AtSlot) {s : Step} (hs : a.step? = some s) :
    s.Addressed := by
  cases a with
  | load c slot =>
    cases hs
    exact addressed_localStep h ⟨c, Or.inl rfl⟩
  | store c slot =>
    cases hs
    exact addressed_localStep h ⟨c, Or.inr rfl⟩
  | increment slot delta =>
    cases hs
    exact h
  | push l =>
    cases hs
    cases l.push <;> trivial
  | createArray c =>
    cases hs
    cases c <;> trivial
  | giveBack c => cases c <;> cases hs <;> trivial
  | duplicate size | discard size =>
    simp only [step?] at hs
    split at hs
    · cases hs
      trivial
    · split at hs <;> cases hs
      trivial
  | _ => cases hs; trivial

theorem addressed {a : Atom} (h : a.AtSlot) : ∀ s ∈ a.steps, s.Addressed :=
  fun _ hs => addressed_of_step? h (Option.mem_toList.mp hs)

end Atom

namespace Manipulation

mutual

/-- The steps of a tree access local variables at slots there are. -/
theorem addressed : (m : Manipulation) → m.Everywhere Atom.AtSlot → ∀ s ∈ m.steps, s.Addressed
  | trivial, _ => by simp [steps]
  | illegal, _ => by simp [steps]
  | atom a, h => by
    rw [Everywhere] at h
    rw [steps]
    exact Atom.addressed h
  | compound members, h => by
    rw [Everywhere] at h
    rw [steps]
    exact addressed_all members h
  | arrayLiteral component elements, h => by
    rw [Everywhere] at h
    simp only [steps, List.forall_mem_append]
    exact ⟨Atom.addressed True.intro, Atom.addressed True.intro,
      addressed_elements elements h component 0⟩
  | custom .., h => by rw [Everywhere] at h; exact h.elim

/-- So do the steps of the members of a compound. -/
theorem addressed_all : (ms : List Manipulation) → AllEverywhere Atom.AtSlot ms →
    ∀ s ∈ allSteps ms, s.Addressed
  | [], _ => by simp [allSteps]
  | m :: rest, h => by
    rw [AllEverywhere] at h
    simp only [allSteps, List.forall_mem_append]
    exact ⟨addressed m h.1, addressed_all rest h.2⟩

/-- So do those of the elements of an array; what stores them accesses no local variable. -/
theorem addressed_elements : (ms : List Manipulation) → AllEverywhere Atom.AtSlot ms →
    (component : Component) → (index : Nat) → ∀ s ∈ elementSteps component index ms, s.Addressed
  | [], _, component, index => by simp [elementSteps]
  | m :: rest, h, component, index => by
    rw [AllEverywhere] at h
    simp only [elementSteps, List.forall_mem_append]
    exact ⟨Atom.addressed True.intro, Atom.addressed True.intro, addressed m h.1,
      Atom.addressed True.intro, addressed_elements rest h.2 component (index + 1)⟩

end

end Manipulation

end OperandStack
