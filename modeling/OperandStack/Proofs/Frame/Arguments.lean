import Mathlib.Order.Monotone.Basic
import OperandStack.Proofs.Body.Arguments
import OperandStack.Proofs.Emission.Nesting
import OperandStack.Proofs.Frame.Size

/-!
# The frame of the arguments

The receiver, if there is one, and the parameters take the first slots of the local
variables, each slot for one of them. Loading them all adds up the slots on the way;
loading one of them adds up the slots of those before it. The two agree, and what the
loads push and reach is exactly the slots of the method.
-/

namespace OperandStack

namespace Method

variable {m : Method}

/-- The slot that is looked up for a parameter is the sum of the slots before it. -/
theorem parameterSlot?_eq {i : Nat} (h : i ≤ m.parameters.length) :
    m.parameterSlot? i = some (m.slotAt i) :=
  if_pos h

/-- The last parameter ends where the arguments do. -/
theorem slotAt_length (m : Method) : m.slotAt m.parameters.length = m.slots := by
  rw [slotAt, List.take_length, slots, parameterSlots]

theorem slotAt_zero (m : Method) : m.slotAt 0 = m.firstSlot := by simp [slotAt, slotsOf]

/-- Later parameters lie in later slots. -/
theorem slotAt_mono (m : Method) : Monotone m.slotAt := by
  refine monotone_nat_of_le_succ fun i => ?_
  cases ht : m.parameters[i]? with
  | none =>
    have hlength := List.getElem?_eq_none_iff.mp ht
    rw [slotAt, slotAt, List.take_of_length_le hlength, List.take_of_length_le (by omega)]
  | some t =>
    rw [slotAt_succ ht]
    exact Nat.le_add_right _ _

/-- Whether the receiver, or the parameter at a place, lies in a slot. -/
def Occupies (m : Method) : Option Nat → Nat → Prop
  | none, slot => m.isStatic = false ∧ slot = 0
  | some i, slot => ∃ t first, m.parameters[i]? = some t ∧ m.parameterSlot? i = some first ∧
      first ≤ slot ∧ slot < first + t.size.slots.toNat

/-- The receiver fills the slots before the first parameter. -/
theorem occupies_none_iff {slot : Nat} : m.Occupies none slot ↔ slot < m.firstSlot := by
  unfold Occupies firstSlot
  cases m.isStatic <;> simp

/-- A parameter lies between its own slot and that of the next one. -/
theorem occupies_some_iff {i slot : Nat} : m.Occupies (some i) slot ↔
    i < m.parameters.length ∧ m.slotAt i ≤ slot ∧ slot < m.slotAt (i + 1) := by
  constructor
  · rintro ⟨t, first, ht, hfirst, hlow, hhigh⟩
    obtain ⟨hi, _⟩ := List.getElem?_eq_some_iff.mp ht
    rw [parameterSlot?_eq (Nat.le_of_lt hi), Option.some.injEq] at hfirst
    subst hfirst
    rw [slotAt_succ ht]
    exact ⟨hi, hlow, hhigh⟩
  · rintro ⟨hi, hlow, hhigh⟩
    have ht := List.getElem?_eq_getElem hi
    rw [slotAt_succ ht] at hhigh
    exact ⟨_, _, ht, parameterSlot?_eq (Nat.le_of_lt hi), hlow, hhigh⟩

/-- Every slot from the first parameter on lies between the slots of two neighbours. -/
theorem exists_slotAt_le {n slot : Nat} (hfirst : m.firstSlot ≤ slot) (h : slot < m.slotAt n) :
    ∃ i < n, m.slotAt i ≤ slot ∧ slot < m.slotAt (i + 1) := by
  induction n with
  | zero =>
    rw [slotAt_zero] at h
    omega
  | succ n ih =>
    by_cases hbefore : slot < m.slotAt n
    · obtain ⟨i, hi, hbetween⟩ := ih hbefore
      exact ⟨i, Nat.lt_succ_of_lt hi, hbetween⟩
    · exact ⟨n, Nat.lt_succ_self n, Nat.not_lt.mp hbefore, h⟩

/-- The arguments cover exactly the slots of a method. -/
theorem exists_occupies_iff {slot : Nat} : (∃ place, m.Occupies place slot) ↔ slot < m.slots := by
  constructor
  · rintro ⟨_ | i, hplace⟩
    · have hfirst := occupies_none_iff.mp hplace
      unfold slots
      omega
    · obtain ⟨hi, _, hhigh⟩ := occupies_some_iff.mp hplace
      have hle := m.slotAt_mono (Nat.succ_le_of_lt hi)
      rw [slotAt_length] at hle
      exact Nat.lt_of_lt_of_le hhigh hle
  · intro hslot
    by_cases hfirst : slot < m.firstSlot
    · exact ⟨none, occupies_none_iff.mpr hfirst⟩
    · rw [← slotAt_length] at hslot
      obtain ⟨i, hi, hbetween⟩ := exists_slotAt_le (Nat.not_lt.mp hfirst) hslot
      exact ⟨some i, occupies_some_iff.mpr ⟨hi, hbetween⟩⟩

/-- Parameters at different places do not overlap. -/
private theorem not_occupies_of_lt {i j slot : Nat} (hij : i < j) (hi : m.Occupies (some i) slot) :
    ¬ m.Occupies (some j) slot := by
  intro hj
  have hend := (occupies_some_iff.mp hi).2.2
  have hstart := (occupies_some_iff.mp hj).2.1
  have hle := m.slotAt_mono (Nat.succ_le_of_lt hij)
  exact absurd (Nat.lt_of_lt_of_le hend (hle.trans hstart)) (Nat.lt_irrefl _)

/-- The receiver does not overlap with parameters. -/
private theorem not_occupies_of_receiver {i slot : Nat} (h : m.Occupies none slot) :
    ¬ m.Occupies (some i) slot := by
  intro hi
  have hreceiver := occupies_none_iff.mp h
  have hstart := (occupies_some_iff.mp hi).2.1
  have hle := m.slotAt_mono (Nat.zero_le i)
  rw [slotAt_zero] at hle
  omega

/-- No two arguments share a slot. -/
theorem Occupies.unique {p q : Option Nat} {slot : Nat} (hp : m.Occupies p slot)
    (hq : m.Occupies q slot) : p = q := by
  cases p with
  | none =>
    cases q with
    | none => rfl
    | some j => exact absurd hq (not_occupies_of_receiver hp)
  | some i =>
    cases q with
    | none => exact absurd hp (not_occupies_of_receiver hq)
    | some j =>
      obtain hij | rfl | hji := Nat.lt_trichotomy i j
      · exact absurd hq (not_occupies_of_lt hij hp)
      · rfl
      · exact absurd hp (not_occupies_of_lt hji hq)

end Method

namespace Manipulation

variable {m : Method}

/-- The load of a value of a type from a slot; there is none for `void`. -/
def loadOf (t : TypeDesc) (slot : Nat) : Manipulation :=
  match t.sort? with
  | some c => load c (Int64.ofNat slot)
  | none => illegal

/-- A type with values is loaded in their sort. -/
theorem loadOf_of_sort? {t : TypeDesc} {c : Computational} (h : t.sort? = some c) (slot : Nat) :
    loadOf t slot = load c (Int64.ofNat slot) := by
  rw [loadOf, h]

theorem memberCount?_loadOf (t : TypeDesc) (slot : Nat) : (loadOf t slot).memberCount? = none := by
  unfold loadOf load
  repeat' split
  all_goals rfl

/-- Every parameter is loaded from behind those before it; `void` takes no slots. -/
theorem loadFrom_cons (slot : Nat) (t : TypeDesc) (rest : List TypeDesc) :
    loadFrom slot (t :: rest) = loadOf t slot :: loadFrom (slot + t.size.slots.toNat) rest := by
  have hloads : loadFrom slot (t :: rest) = match t.sort? with
      | some c => load c (Int64.ofNat slot) :: loadFrom (slot + c.size.slots.toNat) rest
      | none => illegal :: loadFrom slot rest := rfl
  rw [hloads, loadOf]
  cases hc : t.sort? with
  | none =>
    rw [TypeDesc.size_of_void hc]
    rfl
  | some c => rw [TypeDesc.size_of_sort? hc]

/-- There is one load for each parameter. -/
theorem length_loadFrom (slot : Nat) (types : List TypeDesc) :
    (loadFrom slot types).length = types.length := by
  induction types generalizing slot with
  | nil => rfl
  | cons t rest ih => rw [loadFrom_cons, List.length_cons, List.length_cons, ih]

/-- The offset that is added up on the way is the sum of the slots before. -/
theorem getElem?_loadFrom (slot : Nat) (types : List TypeDesc) (i : Nat) :
    (loadFrom slot types)[i]? =
      types[i]?.map fun t => loadOf t (slot + Method.slotsOf (types.take i)) := by
  induction types generalizing slot i with
  | nil => rfl
  | cons t rest ih =>
    rw [loadFrom_cons]
    cases i with
    | zero => rfl
    | succ i =>
      have hslots : Method.slotsOf ((t :: rest).take (i + 1)) =
          t.size.slots.toNat + Method.slotsOf (rest.take i) := by
        simp [Method.slotsOf]
      rw [List.getElem?_cons_succ, List.getElem?_cons_succ, ih, hslots, Nat.add_assoc]

/-- No load is a compound, so composition leaves them as they are. -/
theorem memberCount?_of_mem_loadFrom {slot : Nat} {types : List TypeDesc} :
    ∀ value ∈ loadFrom slot types, value.memberCount? = none := by
  intro value hvalue
  obtain ⟨i, hi⟩ := List.mem_iff_getElem?.mp hvalue
  rw [getElem?_loadFrom, Option.map_eq_some_iff] at hi
  obtain ⟨t, _, rfl⟩ := hi
  exact memberCount?_loadOf _ _

theorem loadParameters_eq (m : Method) :
    loadParameters m = compound (loadFrom m.firstSlot m.parameters) :=
  compose_of_memberCount? memberCount?_of_mem_loadFrom

/-- One parameter is loaded from its own slot, if its type has values. -/
theorem loadParameter_eq {i : Int64} {t : TypeDesc} (hi : 0 ≤ i)
    (ht : m.parameters[i.toInt.toNat]? = some t) :
    loadParameter m i =
      (localSort t).map fun c => load c (Int64.ofNat (m.slotAt i.toInt.toNat)) := by
  obtain ⟨hlt, _⟩ := List.getElem?_eq_some_iff.mp ht
  unfold loadParameter
  rw [if_neg (Int64.not_lt.mpr hi), ht, Method.parameterSlot?_eq (Nat.le_of_lt hlt)]
  dsimp only
  cases localSort t <;> rfl

theorem localSort_eq (t : TypeDesc) : localSort t = match t.sort? with
    | some c => .ok c
    | none => .error (.of .assemble .illegalArgument
      "void has no local variable representation") := rfl

/-- The load of one parameter is its load among all of them, with an illegal piece for `void`. -/
theorem getElem?_loadParameters {i : Int64} (hi : 0 ≤ i)
    (hlt : i.toInt < m.parameters.length) :
    (loadFrom m.firstSlot m.parameters)[i.toInt.toNat]? =
        some ((loadParameter m i).toOption.getD illegal) ∧
      ((∃ e, loadParameter m i = .error e) ↔
        ∃ t, m.parameters[i.toInt.toNat]? = some t ∧ t.isVoid = true) := by
  have hnonneg : 0 ≤ i.toInt := Int64.le_iff_toInt_le.mp hi
  have hlt' : i.toInt.toNat < m.parameters.length := by omega
  obtain ⟨t, ht⟩ : ∃ t, m.parameters[i.toInt.toNat]? = some t :=
    ⟨_, List.getElem?_eq_getElem hlt'⟩
  have hslot : m.firstSlot + Method.slotsOf (m.parameters.take i.toInt.toNat) =
      m.slotAt i.toInt.toNat := rfl
  rw [getElem?_loadFrom, hslot, loadParameter_eq hi ht, ht, localSort_eq, Option.map_some]
  simp only [Option.some.injEq, exists_eq_left', ← TypeDesc.sort?_eq_none_iff, loadOf]
  cases t.sort? with
  | none => exact ⟨rfl, by simp [Except.map]⟩
  | some c => exact ⟨rfl, by simp [Except.map]⟩

/-- From a slot that 64 bits hold a value is loaded by one atom. -/
theorem loadOf_eq_atom {t : TypeDesc} {c : Computational} (hc : t.sort? = some c) {slot : Nat}
    (hslot : slot < 2 ^ 63) : loadOf t slot = atom (.load c (Int64.ofNat slot)) := by
  have hnonneg : ¬ Int64.ofNat slot < 0 := by
    rw [Int64.lt_iff_toInt_lt, Int64.toInt_ofNat_of_lt hslot]
    exact Int.not_lt.mpr (Int.natCast_nonneg slot)
  rw [loadOf_of_sort? hc, load, if_neg hnonneg]

/-- A value pushed on top of others adds its slots to the net and to the peak. -/
theorem followedBy_pushed {depth : Nat} {size : ValueSize}
    (h : depth + size.slots.toNat < 2 ^ 63) :
    StackEffect.followedBy ⟨Int64.ofNat depth, Int64.ofNat depth⟩ size.pushed =
      ⟨Int64.ofNat (depth + size.slots.toNat), Int64.ofNat (depth + size.slots.toNat)⟩ := by
  have hsum : Int64.ofNat depth + size.depth = Int64.ofNat (depth + size.slots.toNat) := by
    rw [Int64.ofNat_add]
    rfl
  have hmax : max (Int64.ofNat depth) (Int64.ofNat (depth + size.slots.toNat)) =
      Int64.ofNat (depth + size.slots.toNat) := by
    apply Int64.toInt_inj.mp
    rw [Depth.toInt_max, Int64.toInt_ofNat_of_lt h, Int64.toInt_ofNat_of_lt (by omega)]
    omega
  rw [StackEffect.followedBy, ValueSize.pushed, hsum, hmax]

/-- A load ends where its value does, in its compact and in its indexed form. -/
theorem localEnd?_of_mem_load {c : Computational} {slot : Nat} (hslot : slot < 2 ^ 63) :
    ∀ step ∈ (Atom.load c (Int64.ofNat slot)).steps,
      step.localEnd? = some (Int64.ofNat (slot + c.size.slots.toNat)) := by
  intro step hstep
  have hint := Int64.toInt_ofNat_of_lt hslot
  have hnonneg : 0 ≤ Int64.ofNat slot := by
    rw [Int64.le_iff_toInt_le, hint]
    exact Int.natCast_nonneg slot
  obtain ⟨s, hs, hend⟩ := (Atom.Accesses.load c (Int64.ofNat slot)).exists_step hnonneg
  obtain rfl : step = s := by simpa [Atom.steps, hs] using hstep
  rw [Int64.ofNat_add]
  exact hend

/-- Loads that are valid, push up to a depth what starts at another, and reach no slot beyond that
depth. -/
structure LoadUpTo (start stop : Nat) (loads : List Manipulation) : Prop where
  valid : allValid loads = true
  effect_eq : effectAfter ⟨Int64.ofNat start, Int64.ofNat start⟩ loads =
    ⟨Int64.ofNat stop, Int64.ofNat stop⟩
  ends : ∀ step ∈ allSteps loads, ∃ e, step.localEnd? = some e ∧ e.toInt ≤ stop

/-- Values are loaded from consecutive slots onto as many slots of the stack. With the depth at the
first slot to start with, depth and slot stay equal from one parameter to the next. -/
theorem loadFrom_loadUpTo {types : List TypeDesc} {slot : Nat}
    (hvalues : ∀ t ∈ types, t.isVoid = false) (hfits : slot + Method.slotsOf types < 2 ^ 63) :
    LoadUpTo slot (slot + Method.slotsOf types) (loadFrom slot types) := by
  induction types generalizing slot with
  | nil => exact ⟨rfl, rfl, by simp [loadFrom, allSteps]⟩
  | cons t rest ih =>
    rw [List.forall_mem_cons] at hvalues
    obtain ⟨c, hc⟩ := TypeDesc.exists_sort_of_not_void hvalues.1
    have hsize := TypeDesc.size_of_sort? hc
    have hslots : slot + Method.slotsOf (t :: rest) =
        slot + c.size.slots.toNat + Method.slotsOf rest := by
      rw [← hsize]
      simp [Method.slotsOf, Nat.add_assoc]
    rw [hslots] at hfits ⊢
    have hrest := ih hvalues.2 hfits
    rw [loadFrom_cons, loadOf_eq_atom hc (by omega), hsize]
    refine ⟨?_, ?_, ?_⟩
    · rw [allValid, isValid, Bool.true_and]
      exact hrest.valid
    · rw [effectAfter, effect, Atom.effect, followedBy_pushed (by omega)]
      exact hrest.effect_eq
    · rw [allSteps, steps, List.forall_mem_append]
      refine ⟨fun step hstep => ?_, hrest.ends⟩
      refine ⟨_, localEnd?_of_mem_load (by omega) step hstep, ?_⟩
      rw [Int64.toInt_ofNat_of_lt (by omega)]
      omega

end Manipulation

namespace Method

/-- The types of the receiver, if there is one, and of the parameters. What the type of the receiver
is does not matter: it is a reference. -/
def argumentTypes (m : Method) : List TypeDesc :=
  (if m.isStatic then [] else [.object]) ++ m.parameters

/-- Receiver and parameters together take the slots of the method. -/
theorem slotsOf_argumentTypes (m : Method) : slotsOf m.argumentTypes = m.slots := by
  have hobject : TypeDesc.object.size.slots.toNat = 1 := rfl
  unfold argumentTypes slots parameterSlots firstSlot
  cases m.isStatic <;> simp [slotsOf, hobject]

/-- The step that loads a value of a type from a slot; there is none for `void`. -/
def loadStep? (t : TypeDesc) (slot : Nat) : Option Step :=
  t.sort?.map fun c => Atom.localStep c.compactLoadOp c.loadOp (Int64.ofNat slot)

/-- The steps that load the receiver, if there is one, from the first slot, and every parameter from
its own. -/
def argumentLoads (m : Method) : List Step :=
  (if m.isStatic then [] else [Atom.localStep .aload0 .aload 0]) ++
    m.parameters.zipIdx.filterMap fun (t, i) => loadStep? t (m.slotAt i)

end Method

namespace Manipulation

/-- The steps of loads from consecutive slots, each told from the slots before it. -/
theorem allSteps_loadFrom {types : List TypeDesc} {slot : Nat}
    (hvalues : ∀ t ∈ types, t.isVoid = false) (hfits : slot + Method.slotsOf types < 2 ^ 63) :
    allSteps (loadFrom slot types) = types.zipIdx.filterMap fun (t, i) =>
      Method.loadStep? t (slot + Method.slotsOf (types.take i)) := by
  induction types generalizing slot with
  | nil => rfl
  | cons t rest ih =>
    rw [List.forall_mem_cons] at hvalues
    obtain ⟨c, hc⟩ := TypeDesc.exists_sort_of_not_void hvalues.1
    have hslots : ∀ more : List TypeDesc, slot + Method.slotsOf (t :: more) =
        slot + t.size.slots.toNat + Method.slotsOf more := by
      intro more
      simp [Method.slotsOf, Nat.add_assoc]
    rw [hslots] at hfits
    have hfirst : Method.loadStep? t (slot + Method.slotsOf ((t :: rest).take 0)) =
        some (Atom.localStep c.compactLoadOp c.loadOp (Int64.ofNat slot)) := by
      rw [Method.loadStep?, hc]
      rfl
    rw [loadFrom_cons, loadOf_eq_atom hc (by omega), allSteps, ih hvalues.2 hfits,
      List.zipIdx_cons, List.filterMap_cons]
    simp only [hfirst, List.zipIdx_succ, List.filterMap_map, Function.comp_def,
      List.take_succ_cons, hslots]
    rfl

/-- The arguments are loaded from the first slot on. -/
theorem loadArguments_eq (m : Method) :
    loadArguments m = compound (loadFrom 0 m.argumentTypes) := by
  have hthis : loadThis = loadOf .object 0 := rfl
  unfold loadArguments Method.argumentTypes
  rw [loadParameters_eq, compose_eq, List.flatMap_append, List.flatMap_singleton, members]
  cases hstatic : m.isStatic with
  | true =>
    have hfirst : m.firstSlot = 0 := by simp [Method.firstSlot, hstatic]
    rw [hfirst]
    rfl
  | false =>
    have hfirst : m.firstSlot = 1 := by simp [Method.firstSlot, hstatic]
    rw [if_neg Bool.false_ne_true, if_neg Bool.false_ne_true, List.singleton_append, loadFrom_cons,
      List.flatMap_singleton, hthis, members_of_memberCount? (memberCount?_loadOf _ _), hfirst]
    rfl

/-- Loading all arguments emits one load for each of them. -/
theorem steps_loadArguments {m : Method} (hvalues : ∀ t ∈ m.parameters, t.isVoid = false)
    (hfits : m.slots < 2 ^ 63) : (loadArguments m).steps = m.argumentLoads := by
  have hparameters : (loadParameters m).steps = m.parameters.zipIdx.filterMap fun (t, i) =>
      Method.loadStep? t (m.slotAt i) := by
    rw [loadParameters_eq, steps]
    exact allSteps_loadFrom hvalues hfits
  unfold loadArguments Method.argumentLoads
  rw [steps_compose, ← hparameters]
  cases m.isStatic <;> simp [loadThis, load]
  rfl

/-- All arguments load up to the slots of their method. -/
theorem loadArguments_loadUpTo {m : Method} (hvalues : ∀ t ∈ m.parameters, t.isVoid = false)
    (hfits : m.slots < 2 ^ 63) : LoadUpTo 0 m.slots (loadFrom 0 m.argumentTypes) := by
  rw [← m.slotsOf_argumentTypes] at hfits ⊢
  have hloads : LoadUpTo 0 (0 + Method.slotsOf m.argumentTypes) (loadFrom 0 m.argumentTypes) := by
    refine loadFrom_loadUpTo ?_ (by omega)
    unfold Method.argumentTypes
    rw [List.forall_mem_append]
    refine ⟨?_, hvalues⟩
    cases m.isStatic <;> simp [TypeDesc.object, TypeDesc.isVoid, TypeDesc.kind]
  rwa [Nat.zero_add] at hloads

/-- Steps that reach no slot beyond those of the arguments leave the local variables at them. -/
theorem maxLocalsOf_eq {m : Method} {code : List Step} (hfits : m.slots < 2 ^ 63)
    (hends : ∀ step ∈ code, ∃ e, step.localEnd? = some e ∧ e.toInt ≤ m.slots) :
    maxLocalsOf m code.toArray = Int64.ofNat m.slots := by
  have hslots := Int64.toInt_ofNat_of_lt hfits
  obtain ⟨hmember, hupper⟩ := isGreatest_maxLocalsOf m code
  apply Int64.toInt_inj.mp
  apply Int.le_antisymm
  · obtain heq | ⟨step, hstep, e, he, heq⟩ := hmember
    · exact Int.le_of_eq heq
    · obtain ⟨e', he', hle⟩ := hends step hstep
      rw [he, Option.some.injEq] at he'
      rw [← heq, he', hslots]
      exact hle
  · exact hupper (Set.mem_insert _ _)

/-- The loads of all parameters are, in order, the loads of each of them, with an illegal piece for
each that is `void`. The arguments lie in the slots of the method, each slot being that of one of
them. If no parameter is `void`, loading all arguments emits one load for each of them, from its own
slot. These push as many slots as the arguments take, and a method made of them has local variables
for these alone. -/
theorem loadArguments_tile_locals (m : Method) :
    (∃ loads, loadParameters m = compound loads ∧ loads.length = m.parameters.length ∧
      ∀ i : Int64, 0 ≤ i → i.toInt < m.parameters.length →
        loads[i.toInt.toNat]? = some ((loadParameter m i).toOption.getD illegal) ∧
        ((∃ e, loadParameter m i = .error e) ↔
          ∃ t, m.parameters[i.toInt.toNat]? = some t ∧ t.isVoid = true)) ∧
    (∀ slot, (∃ place, m.Occupies place slot) ↔ slot < m.slots) ∧
    (∀ slot p q, m.Occupies p slot → m.Occupies q slot → p = q) ∧
    ((∀ t ∈ m.parameters, t.isVoid = false) → m.slots < 2 ^ 63 →
      (loadArguments m).emit =
        (m.argumentLoads.toArray, .ok ⟨Int64.ofNat m.slots, Int64.ofNat m.slots⟩) ∧
      ∀ limits, (emitBody limits m (loadArguments m)).frame.maxLocals = Int64.ofNat m.slots ∧
        ((emitBody limits m (loadArguments m)).failure? = none ↔
          Int64.ofNat m.slots ≤ Limits.inForce limits.maxStack ∧
          Int64.ofNat m.slots ≤ Limits.inForce limits.maxLocals)) := by
  refine ⟨?_, fun slot => Method.exists_occupies_iff, fun slot p q => Method.Occupies.unique, ?_⟩
  · exact ⟨_, loadParameters_eq m, length_loadFrom _ _, fun i => getElem?_loadParameters⟩
  · intro hvalues hfits
    have hloads := loadArguments_loadUpTo hvalues hfits
    have hvalid : (loadArguments m).isValid = true := by
      rw [loadArguments_eq, isValid]
      exact hloads.valid
    have heffect : (loadArguments m).effect = ⟨Int64.ofNat m.slots, Int64.ofNat m.slots⟩ := by
      rw [loadArguments_eq, effect]
      exact hloads.effect_eq
    have hlocals : maxLocalsOf m (loadArguments m).steps.toArray = Int64.ofNat m.slots := by
      refine maxLocalsOf_eq hfits ?_
      rw [loadArguments_eq, steps]
      exact hloads.ends
    have hsteps := steps_loadArguments hvalues hfits
    have hemit := emit_eq hvalid
    rw [heffect, hsteps] at hemit
    rw [hsteps] at hlocals
    refine ⟨hemit, fun limits => ?_⟩
    unfold emitBody
    simp only [hvalid, if_true, hemit, hlocals, excess?_eq_none_iff, true_and]

/-- An instance method with a long behind four other slots, so that it is loaded in the indexed form:
six slots for four arguments. -/
theorem loadArguments_tile_locals_indexed :
    let m : Method := ⟨.object, "pick", .isPublic, .void,
      [.primitive .int, .primitive .double, .primitive .long]⟩
    (∀ t ∈ m.parameters, t.isVoid = false) ∧ m.slots = 6 ∧
      (∃ loads, loadParameters m = compound loads ∧
        loads[2]? = some ((loadParameter m 2).toOption.getD illegal)) ∧
      (loadArguments m).emit = (#[.plain .aload0, .plain (.plus .iload0 1),
        .plain (.plus .dload0 2), .access .lload 4], .ok ⟨6, 6⟩) ∧
      m.Occupies (some 2) 5 ∧ (∀ place, m.Occupies place 5 → place = some 2) ∧
      (emitBody .default m (loadArguments m)).frame.maxLocals = 6 ∧
      (emitBody .default m (loadArguments m)).failure? = none := by
  intro m
  have hvalues : ∀ t ∈ m.parameters, t.isVoid = false := by
    simp [m, TypeDesc.isVoid, TypeDesc.kind]
  have hslots : m.slots = 6 := by decide
  obtain ⟨⟨loads, hloads, _, heach⟩, _, hunique, hframe⟩ := loadArguments_tile_locals m
  obtain ⟨hsize, hassembled⟩ := hframe hvalues (by rw [hslots]; decide)
  obtain ⟨hlocals, haccepted⟩ := hassembled .default
  have hsteps : m.argumentLoads = [.plain .aload0, .plain (.plus .iload0 1),
      .plain (.plus .dload0 2), .access .lload 4] := by decide
  rw [hslots, hsteps] at hsize
  rw [hslots] at hlocals haccepted
  have hlong : m.Occupies (some 2) 5 := ⟨.primitive .long, 4, rfl, by decide, by decide, by decide⟩
  refine ⟨hvalues, hslots, ⟨loads, hloads, ?_⟩, hsize, hlong, fun place hplace => ?_, hlocals, ?_⟩
  · exact (heach 2 (by decide) (by decide)).1
  · exact hunique 5 place (some 2) hplace hlong
  · exact haccepted.mpr (by decide)

end Manipulation

end OperandStack
