import OperandStack.Proofs.Emission.Built
import OperandStack.Proofs.Emission.Code
import OperandStack.Proofs.Machine.Action

/-!
# The actions of atoms

What an atom is for, said in terms of its own data, is what the steps it emits do.
This is the only place where opcodes and descriptors are compared with the pieces of
a body that chose them.
-/

namespace OperandStack

/-- The sort of the values of a primitive type. -/
def Primitive.sort : Primitive → Computational
  | long => .long
  | float => .float
  | double => .double
  | _ => .int

namespace Literal

/-- The sort of a literal. -/
def sort : Literal → Computational
  | int _ => .int
  | long _ => .long
  | float _ => .float
  | double _ => .double
  | _ => .reference

end Literal

namespace Conversion

/-- The sort that a conversion starts from. -/
def source : Conversion → Computational
  | longToFloat => .long
  | longToDouble => .long
  | floatToDouble => .float
  | _ => .int

/-- The sort that a conversion ends with. -/
def target : Conversion → Computational
  | intToLong => .long
  | intToFloat => .float
  | longToFloat => .float
  | _ => .double

end Conversion

/-- The sort of the elements of an array. -/
def Component.sort : Component → Computational
  | primitive p => p.sort
  | reference _ => .reference

/-- The sorts below the value that an access of a field finds on the stack. -/
def Field.receiver (f : Field) : List Computational := if f.isStatic then [] else [.reference]

/-- The sorts below the arguments that a call of a method finds on the stack. -/
def Method.receiver (m : Method) : List Computational := if m.isStatic then [] else [.reference]

/-- The sorts of the parameters of a method. -/
def Method.parameterSorts (m : Method) : List Computational :=
  m.parameters.filterMap TypeDesc.sort?

/-- The actions of an atom. -/
def Atom.actions : Atom → List Action
  | push l => [.push l.sort]
  | duplicate size => if size = .zero then [] else [.copy size.slots.toNat 0]
  | duplicateUnder size under => [.copy size.slots.toNat under.slots.toNat]
  | discard size => if size = .zero then [] else [.drop size.slots.toNat]
  | throwTop => [.raise]
  | convert c => [.convert c.source c.target]
  | box p => [.convert p.sort .reference]
  | unbox p => [.convert .reference p.sort]
  | cast _ => [.convert .reference .reference]
  | readField f => [.exchange f.receiver f.type.sort?.toList]
  | writeField f => [.exchange (f.type.sort?.toList ++ f.receiver) []]
  | invoke i =>
    [.exchange (i.method.parameterSorts.reverse ++ i.method.receiver)
      i.method.returns.sort?.toList]
  | load c slot => [.load c slot.toInt.toNat]
  | store c slot => [.store c slot.toInt.toNat]
  | increment slot _ => [.increment slot.toInt.toNat]
  | giveBack c => [.leave c]
  | create _ => [.push .reference]
  | createArray _ => [.convert .int .reference]
  | loadElement c => [.exchange [.int, .reference] [c.sort]]
  | storeElement c => [.exchange [c.sort, .int, .reference] []]
  | arrayLength => [.convert .reference .int]

/-- The small int constants are neighbours. -/
private theorem iconst_action? {n : Nat} (h : n ≤ 6) :
    (Opcode.iconstM1.plus n).action? = some (.push .int) := by
  have hcases : ∀ n ≤ 6, (Opcode.iconstM1.plus n).action? = some (.push .int) := by decide
  exact hcases n h

/-- An int is pushed, whichever of the forms is chosen for it. -/
private theorem pushInt_action? (v : Int32) :
    (Literal.pushInt v).step.action? = some (.push .int) := by
  unfold Literal.pushInt
  split
  · next h =>
    refine iconst_action? ?_
    have hlow : -1 ≤ v.toInt := Int32.le_iff_toInt_le.mp h.1
    have hhigh : v.toInt ≤ 5 := Int32.le_iff_toInt_le.mp h.2
    have hsum : (v + 1).toInt = v.toInt + 1 := by
      have hone : (1 : Int32).toInt = 1 := by decide
      rw [Int32.toInt_add, hone]
      exact Int.bmod_eq_of_le (by omega) (by omega)
    omega
  · repeat' split
    all_goals rfl

/-- A literal is pushed as a value of its sort, whatever the means. -/
theorem Literal.push_action? (l : Literal) : l.push.step.action? = some (.push l.sort) := by
  cases l with
  | int value => exact pushInt_action? value
  | long value =>
    simp only [push, pushLong]
    repeat' split
    all_goals rfl
  | float bits =>
    simp only [push, pushFloat]
    repeat' split
    all_goals rfl
  | double bits =>
    simp only [push, pushDouble]
    repeat' split
    all_goals rfl
  | null => rfl
  | text value => rfl
  | typeOf t =>
    simp only [push, pushType]
    split <;> rfl

private theorem localNumber?_of_nonneg {slot : Int64} (h : 0 ≤ slot) :
    Step.localNumber? slot = some slot.toInt.toNat :=
  if_neg (Int64.not_lt.mpr h)

/-- A local access does the same in its compact and in its indexed form. -/
private theorem localStep_action? {compact indexed : Opcode} {slot : Int64} {f : Nat → Action}
    (hslot : 0 ≤ slot) (hcompact : ∀ n < 4, (compact.plus n).action? = some (f n))
    (hindexed : ∀ n, indexed.accessAction? n = some (f n)) :
    (Atom.localStep compact indexed slot).action? = some (f slot.toInt.toNat) := by
  have hnonneg : 0 ≤ slot.toInt := Int64.le_iff_toInt_le.mp hslot
  unfold Atom.localStep
  split
  · next hfour =>
    have hlt : slot.toInt < 4 := Int64.lt_iff_toInt_lt.mp hfour
    exact hcompact _ (by omega)
  · simp only [Step.action?, localNumber?_of_nonneg hslot, Option.bind_some, hindexed]

/-- The descriptor of a field can be read, and tells the sort of its type. -/
theorem Field.exists_sort (f : Field) (h : f.type.IsValue) :
    ∃ c, f.type.sort? = some c ∧ Descriptor.fieldSort? f.descriptor = some c := by
  obtain ⟨c, hc⟩ := TypeDesc.exists_sort_of_not_void h.1
  exact ⟨c, hc, (Descriptor.fieldSort?_descriptor h).trans hc⟩

/-- A call whose mode agrees with its method finds the receiver exactly if there is one. -/
private theorem call_action? {i : Invocation} (hmode : i.ModeFits) (parameters : List Computational)
    (result : Option Computational) : Step.callAction? i.mode.opcode parameters result =
      some (.exchange (parameters.reverse ++ i.method.receiver) result.toList) := by
  unfold Invocation.ModeFits at hmode
  unfold Method.receiver
  cases hm : i.mode <;> simp only [hm, reduceCtorEq, true_iff, false_iff] at hmode <;>
    simp [hmode, Step.callAction?, Mode.opcode] <;> decide

private theorem plainName_wrapper (p : Primitive) : (TypeDesc.wrapper p).PlainName := by
  have hname : ';' ∉ (TypeDesc.wrapper p).name.toList := by cases p <;> decide
  cases p <;> exact hname

/-- The method that boxes a value takes it and gives a reference. -/
private theorem methodSorts?_box (p : Primitive) :
    Descriptor.methodSorts?
        ("(" ++ p.letter.toString ++ ")" ++ (TypeDesc.wrapper p).descriptor) =
      some ([p.sort], some .reference) := by
  let m : Method := ⟨.wrapper p, "valueOf", .isStatic, .wrapper p, [.primitive p]⟩
  have hm : m.Regular := by
    refine ⟨?_, plainName_wrapper p⟩
    intro t ht
    rw [List.mem_singleton.mp ht]
    exact ⟨rfl, trivial⟩
  have hdescriptor : m.descriptor =
      "(" ++ p.letter.toString ++ ")" ++ (TypeDesc.wrapper p).descriptor := by
    simp [m, Method.descriptor, TypeDesc.descriptor, String.join]
  rw [← hdescriptor, Descriptor.methodSorts?_descriptor hm]
  cases p <;> rfl

/-- The method that unboxes a value takes nothing but its receiver. -/
private theorem methodSorts?_unbox (p : Primitive) :
    Descriptor.methodSorts? ("()" ++ p.letter.toString) = some ([], some p.sort) := by
  let m : Method := ⟨.wrapper p, p.keyword ++ "Value", .isPublic, .primitive p, []⟩
  have hm : m.Regular := ⟨fun t ht => absurd ht List.not_mem_nil, trivial⟩
  have hdescriptor : m.descriptor = "()" ++ p.letter.toString := by
    rw [← String.toList_inj]
    simp [m, Method.descriptor, TypeDesc.descriptor]
  rw [← hdescriptor, Descriptor.methodSorts?_descriptor hm]
  cases p <;> rfl

namespace Atom

/-- The steps of a regular atom do what the atom is for. -/
theorem steps_action? {a : Atom} (h : a.Regular) :
    a.steps.map Step.action? = a.actions.map some := by
  cases a with
  | push l =>
    simp only [steps, step?, actions, Option.toList_some, List.map_cons, List.map_nil,
      l.push_action?]
  | duplicate size =>
    obtain rfl | rfl | rfl := h <;> decide
  | duplicateUnder size under =>
    obtain ⟨⟨rfl | rfl | rfl, hsize⟩, rfl | rfl | rfl, hunder⟩ := h <;>
      first | contradiction | decide
  | discard size =>
    obtain rfl | rfl | rfl := h <;> decide
  | throwTop => decide
  | convert c => cases c <;> decide
  | box p =>
    simp only [steps, step?, actions, Step.action?, Option.toList_some, List.map_cons, List.map_nil,
      methodSorts?_box]
    rfl
  | unbox p =>
    simp only [steps, step?, actions, Step.action?, Option.toList_some, List.map_cons, List.map_nil,
      methodSorts?_unbox]
    rfl
  | cast t => rfl
  | readField f =>
    obtain ⟨c, hc, hdescriptor⟩ := f.exists_sort h
    cases hstatic : f.isStatic <;>
      simp [steps, step?, actions, Step.action?, hdescriptor, hc, hstatic, Field.receiver] <;> rfl
  | writeField f =>
    obtain ⟨c, hc, hdescriptor⟩ := f.exists_sort h
    cases hstatic : f.isStatic <;>
      simp [steps, step?, actions, Step.action?, hdescriptor, hc, hstatic, Field.receiver] <;> rfl
  | invoke i =>
    obtain ⟨hmode, hmethod⟩ := h
    simp [steps, step?, actions, Step.action?, Descriptor.methodSorts?_descriptor hmethod,
      call_action? hmode, Method.parameterSorts]
  | load c slot =>
    have haction : (localStep c.compactLoadOp c.loadOp slot).action? =
        some (.load c slot.toInt.toNat) := by
      refine localStep_action? h ?_ ?_
      · cases c <;> decide
      · intro n
        cases c <;> rfl
    simp [steps, step?, actions, haction]
  | store c slot =>
    have haction : (localStep c.compactStoreOp c.storeOp slot).action? =
        some (.store c slot.toInt.toNat) := by
      refine localStep_action? h ?_ ?_
      · cases c <;> decide
      · intro n
        cases c <;> rfl
    simp [steps, step?, actions, haction]
  | increment slot delta =>
    simp [steps, step?, actions, Step.action?, localNumber?_of_nonneg h]
  | giveBack c =>
    cases c with
    | none => decide
    | some c => cases c <;> decide
  | create t => rfl
  | createArray c => cases c <;> rfl
  | loadElement c =>
    cases c with
    | primitive p => cases p <;> decide
    | reference name => rfl
  | storeElement c =>
    cases c with
    | primitive p => cases p <;> decide
    | reference name => rfl
  | arrayLength => decide

end Atom

/-- An element takes the slots of its sort. -/
theorem Component.size_eq (c : Component) : c.size = c.sort.size := by
  cases c with
  | primitive p => cases p <;> rfl
  | reference name => rfl

theorem Computational.slotsOf_append (xs ys : List Computational) :
    slotsOf (xs ++ ys) = slotsOf xs + slotsOf ys := by
  simp [slotsOf]

theorem Computational.slotsOf_reverse (xs : List Computational) :
    slotsOf xs.reverse = slotsOf xs := by
  simp [slotsOf]

/-- The slots of a value are those of its sort, none for `void`. -/
theorem TypeDesc.slotsOf_sort? (t : TypeDesc) :
    Computational.slotsOf t.sort?.toList = t.size.slots.toNat := by
  cases h : t.sort? with
  | none =>
    rw [size_of_void h]
    rfl
  | some c =>
    rw [size_of_sort? h]
    simp [Computational.slotsOf]

theorem TypeDesc.filterMap_sort?_cons (t : TypeDesc) (rest : List TypeDesc) :
    (t :: rest).filterMap sort? = t.sort?.toList ++ rest.filterMap sort? := by
  cases h : t.sort? <;> simp [h]

theorem TypeDesc.reverse_sort? (t : TypeDesc) : t.sort?.toList.reverse = t.sort?.toList := by
  cases t.sort? <;> rfl

namespace Method

/-- The slots of values are those of their sorts. -/
theorem slotsOf_sorts (types : List TypeDesc) :
    Computational.slotsOf (types.filterMap TypeDesc.sort?) = slotsOf types := by
  induction types with
  | nil => rfl
  | cons t rest ih =>
    rw [TypeDesc.filterMap_sort?_cons, Computational.slotsOf_append, ih, t.slotsOf_sort?]
    rfl

/-- The receiver takes the slots before the first parameter. -/
theorem slotsOf_receiver (m : Method) : Computational.slotsOf m.receiver = m.firstSlot := by
  unfold receiver firstSlot
  cases m.isStatic <;> rfl

theorem receiver_of_instance {m : Method} (h : m.isStatic = false) : m.receiver = [.reference] := by
  rw [receiver, h]
  rfl

end Method

end OperandStack
