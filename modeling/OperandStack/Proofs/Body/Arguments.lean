import OperandStack.Proofs.Body.Conversion

/-!
# Arguments in local variables

A method starts with its receiver, if there is one, and its parameters in consecutive
local variables, each value in as many slots as it takes. Slots are 64-bit numbers in
the code: a load is valid only as long as its slot has not wrapped around, and by
induction over the parameters a valid body never loads from a slot that has.
-/

namespace OperandStack

/-- The local variables that hold values one after another; only the first slot of a value counts
as its place. -/
def layout (sorts : List Computational) : List (Option Computational) :=
  sorts.flatMap fun c => some c :: List.replicate (c.size.slots.toNat - 1) none

/-- The layout has one entry for each slot. -/
theorem length_layout (sorts : List Computational) :
    (layout sorts).length = Computational.slotsOf sorts := by
  induction sorts with
  | nil => rfl
  | cons c rest ih =>
    have hcons : (layout (c :: rest)).length =
        c.size.slots.toNat - 1 + 1 + (layout rest).length := by
      simp only [layout, List.flatMap_cons, List.length_append, List.length_cons,
        List.length_replicate]
    have hpos : 0 < c.size.slots.toNat := by cases c <;> decide
    have hslots : Computational.slotsOf (c :: rest) =
        c.size.slots.toNat + Computational.slotsOf rest := by
      simp [Computational.slotsOf]
    omega

/-- A value is found behind the slots of the values before it. -/
theorem layout_getElem? (before after : List Computational) (c : Computational) :
    (layout (before ++ c :: after))[Computational.slotsOf before]? = some (some c) := by
  have happend : layout (before ++ c :: after) = layout before ++ layout (c :: after) := by
    simp [layout]
  rw [happend, ← length_layout, List.getElem?_append_right (Nat.le_refl _), Nat.sub_self]
  rfl

namespace Method

/-- The sorts of the receiver, if there is one, and of the parameters. -/
def arguments (m : Method) : List Computational := m.receiver ++ m.parameterSorts

/-- The local variables that a method starts with. -/
def initialLocals (m : Method) (i : Nat) : Option Computational := (layout m.arguments)[i]?.join

/-- The state that a method starts with. -/
def start (m : Method) : SortState := ⟨[], m.initialLocals⟩

/-- The slot of the parameter at a place, or of the one after the last. -/
def slotAt (m : Method) (i : Nat) : Nat := m.firstSlot + slotsOf (m.parameters.take i)

/-- A method with a receiver finds it in the first slot. -/
theorem initialLocals_receiver {m : Method} (h : m.isStatic = false) :
    m.initialLocals 0 = some .reference := by
  simp [initialLocals, arguments, receiver, h, layout]

/-- A parameter lies at its slot. -/
theorem initialLocals_slotAt {m : Method} {i : Nat} {t : TypeDesc} {c : Computational}
    (ht : m.parameters[i]? = some t) (hc : t.sort? = some c) :
    m.initialLocals (m.slotAt i) = some c := by
  obtain ⟨hlt, hget⟩ := List.getElem?_eq_some_iff.mp ht
  have hsplit : m.parameters = m.parameters.take i ++ t :: m.parameters.drop (i + 1) := by
    rw [← hget, ← List.drop_eq_getElem_cons hlt, List.take_append_drop]
  have harguments : m.arguments =
      (m.receiver ++ (m.parameters.take i).filterMap TypeDesc.sort?) ++
        c :: (m.parameters.drop (i + 1)).filterMap TypeDesc.sort? := by
    rw [arguments, parameterSorts, List.append_assoc]
    congr 1
    calc m.parameters.filterMap TypeDesc.sort?
        = (m.parameters.take i ++ t :: m.parameters.drop (i + 1)).filterMap TypeDesc.sort? := by
          rw [← hsplit]
      _ = _ := by rw [List.filterMap_append, List.filterMap_cons_some hc]
  have hslot : m.slotAt i = Computational.slotsOf
      (m.receiver ++ (m.parameters.take i).filterMap TypeDesc.sort?) := by
    rw [Computational.slotsOf_append, slotsOf_sorts, slotsOf_receiver, slotAt]
  rw [initialLocals, harguments, hslot, layout_getElem?]
  rfl

/-- The next parameter starts behind the slots of this one. -/
theorem slotAt_succ {m : Method} {i : Nat} {t : TypeDesc} (ht : m.parameters[i]? = some t) :
    m.slotAt (i + 1) = m.slotAt i + t.size.slots.toNat := by
  rw [slotAt, slotAt, List.take_add_one, ht]
  simp [slotsOf, Nat.add_assoc]

/-- Walking through the parameters from a position on, the first that is met is the one at that
position. -/
theorem parameter_of_drop {m : Method} {i : Nat} {t : TypeDesc} {rest : List TypeDesc}
    (h : m.parameters.drop i = t :: rest) :
    m.parameters[i]? = some t ∧ m.parameters.drop (i + 1) = rest := by
  constructor
  · rw [← List.head?_drop, h]
    rfl
  · rw [← List.tail_drop, h]
    rfl

/-- Whether the slot of a parameter has at most just passed the end of the 64-bit numbers. -/
def Addressable (m : Method) (i : Nat) : Prop := i ≤ m.slotAt i ∧ m.slotAt i < 2 ^ 63 + 2

/-- The slot of the first parameter is in reach. -/
theorem addressable_zero (m : Method) : m.Addressable 0 := by
  have hslot : m.slotAt 0 ≤ 1 := by
    unfold slotAt firstSlot
    split <;> simp [slotsOf]
  exact ⟨Nat.zero_le _, by omega⟩

/-- A number that is not negative in 64 bits has not just passed their end. -/
private theorem lt_of_ofNat_nonneg {n : Nat} (hn : n < 2 ^ 63 + 2) (h : 0 ≤ Int64.ofNat n) :
    n < 2 ^ 63 := by
  have hint : 0 ≤ (Int64.ofNat n).toInt := Int64.le_iff_toInt_le.mp h
  rw [Int64.toInt_ofNat', Int.bmod_def] at hint
  simp only [Int64.size] at hint
  split at hint <;> omega

private theorem toNat_toInt_ofNat {n : Nat} (h : n < 2 ^ 63) : (Int64.ofNat n).toInt.toNat = n := by
  rw [Int64.toInt_ofNat_of_lt h, Int.toNat_natCast]

/-- A valid load of a parameter pushes a value of its sort, and the next slot is in reach. -/
theorem Addressable.moves_load {m : Method} {i : Nat} {t : TypeDesc} {c : Computational}
    (h : m.Addressable i) (ht : m.parameters[i]? = some t) (hc : t.sort? = some c)
    (hvalid : (Manipulation.load c (Int64.ofNat (m.slotAt i))).isValid = true) :
    Moves m.initialLocals (Manipulation.load c (Int64.ofNat (m.slotAt i))).steps [] [c] ∧
      m.Addressable (i + 1) := by
  by_cases hnegative : Int64.ofNat (m.slotAt i) < 0
  · rw [Manipulation.load, if_pos hnegative, Manipulation.isValid] at hvalid
    cases hvalid
  · have hnonneg := Int64.not_lt.mp hnegative
    have hlt := lt_of_ofNat_nonneg h.2 hnonneg
    rw [Manipulation.load, if_neg hnegative]
    constructor
    · refine Atom.moves_load hnonneg ?_
      rw [toNat_toInt_ofNat hlt]
      exact initialLocals_slotAt ht hc
    · have hsize : 1 ≤ t.size.slots.toNat ∧ t.size.slots.toNat ≤ 2 := by
        rw [TypeDesc.size_of_sort? hc]
        cases c <;> decide
      have hfirst := h.1
      unfold Addressable
      rw [slotAt_succ ht]
      omega

/-- A parameter that is pushed by its place is a value of its own sort. -/
theorem Addressable.moves_loadParameter {m : Method} {i : Nat} {t : TypeDesc}
    {value : Manipulation} (h : m.Addressable i) (ht : m.parameters[i]? = some t)
    (hvalue : Manipulation.loadParameter m (Int64.ofNat i) = .ok value)
    (hvalid : value.isValid = true) :
    Moves m.initialLocals value.steps [] t.sort?.toList ∧ m.Addressable (i + 1) := by
  obtain ⟨hnonneg, u, c, slot, hu, hc, hslot, rfl⟩ := Manipulation.loadParameter_eq_ok hvalue
  have hlt : i < 2 ^ 63 := lt_of_ofNat_nonneg (by have := h.1; have := h.2; omega) hnonneg
  rw [toNat_toInt_ofNat hlt] at hu hslot
  obtain rfl : t = u := Option.some.inj (ht.symm.trans hu)
  have hplace : slot = m.slotAt i := by
    unfold parameterSlot? at hslot
    split at hslot
    · cases hslot
      rfl
    · cases hslot
  rw [hplace] at hvalid ⊢
  rw [hc]
  exact h.moves_load ht hc hvalid

end Method

namespace Manipulation

/-- Valid loads of the parameters from some place on push them in order. -/
theorem moves_loadFrom {m : Method} (types : List TypeDesc) {i : Nat} (h : m.Addressable i)
    (htypes : m.parameters.drop i = types)
    (hvalid : ∀ v ∈ loadFrom (m.slotAt i) types, v.isValid = true) :
    Moves m.initialLocals ((loadFrom (m.slotAt i) types).flatMap steps) []
      (types.filterMap TypeDesc.sort?).reverse := by
  induction types generalizing i with
  | nil => exact .nil _ []
  | cons t rest ih =>
    obtain ⟨ht, hrest⟩ := Method.parameter_of_drop htypes
    unfold loadFrom at hvalid ⊢
    cases hc : t.kind.computational? with
    | none =>
      simp only [hc, List.forall_mem_cons] at hvalid
      exact absurd hvalid.1 (by simp [isValid])
    | some c =>
      have hsort : t.sort? = some c := hc
      simp only [hc, List.forall_mem_cons] at hvalid ⊢
      obtain ⟨hload, hnext⟩ := h.moves_load ht hsort hvalid.1
      have hsucc : m.slotAt i + c.size.slots.toNat = m.slotAt (i + 1) := by
        rw [Method.slotAt_succ ht, TypeDesc.size_of_sort? hsort]
      rw [hsucc] at hvalid ⊢
      have hothers := (ih hnext hrest hvalid.2).below [c]
      rw [List.flatMap_cons, List.filterMap_cons_some hsort, List.reverse_cons]
      exact hload.append hothers

/-- Loading the receiver pushes a reference. -/
theorem moves_loadThis {m : Method} (h : m.isStatic = false) :
    Moves m.initialLocals loadThis.steps [] [.reference] := by
  have hload : Moves m.initialLocals (Atom.load .reference 0).steps [] [.reference] :=
    Atom.moves_load (by decide) (Method.initialLocals_receiver h)
  exact hload

/-- All arguments are pushed in order, the receiver first. -/
theorem moves_loadArguments {m : Method} (hvalid : (loadArguments m).isValid = true) :
    Moves m.initialLocals (loadArguments m).steps [] (m.parameterSorts.reverse ++ m.receiver) := by
  unfold loadArguments at hvalid ⊢
  rw [isValid_compose, List.forall_mem_append, List.forall_mem_singleton] at hvalid
  rw [steps_compose, List.flatMap_append, List.flatMap_singleton]
  have hparameters :
      Moves m.initialLocals (loadParameters m).steps [] m.parameterSorts.reverse := by
    have hloads := isValid_compose.mp hvalid.2
    rw [loadParameters, steps_compose]
    exact moves_loadFrom m.parameters m.addressable_zero rfl hloads
  refine Moves.append ?_ (hparameters.below m.receiver)
  unfold Method.receiver
  cases hstatic : m.isStatic with
  | true => exact .nil _ []
  | false => exact moves_loadThis hstatic

end Manipulation

end OperandStack
