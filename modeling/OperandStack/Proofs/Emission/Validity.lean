import Mathlib.Data.List.ReduceOption
import Mathlib.Data.List.TakeWhile
import OperandStack.Proofs.Emission.Built
import OperandStack.Proofs.Emission.Sink

/-!
# Validity is the absence of errors

The emission order of a tree lists its steps and marks every illegal piece by a gap.
Emission gives the steps up to the first gap, and fails exactly if there is one. A
tree of atoms is valid exactly if its emission order has no gap, although validity is
decided without a look at the steps.
-/

namespace OperandStack

namespace Manipulation

mutual

/-- What a tree gives in the order of emission: its steps, with a gap for every illegal piece. -/
def emissionOrder : Manipulation → List (Option Step)
  | trivial => []
  | illegal => [none]
  | atom a => a.steps.map some
  | compound members => memberOrder members
  | arrayLiteral component elements =>
    (pushInt elements.length).steps.map some ++
      ((Atom.createArray component).steps.map some ++ elementOrder component 0 elements)
  | custom more _ _ => more.map some

/-- The emission order of several trees one after another. -/
def memberOrder : List Manipulation → List (Option Step)
  | [] => []
  | m :: rest => m.emissionOrder ++ memberOrder rest

/-- The emission order of the elements of an array from an index on, each behind a copy of the array
and its index, and before the step that stores it. -/
def elementOrder (component : Component) (index : Nat) : List Manipulation → List (Option Step)
  | [] => []
  | m :: rest =>
    (Atom.duplicate .single).steps.map some ++ ((pushInt index).steps.map some ++
      (m.emissionOrder ++ ((Atom.storeElement component).steps.map some ++
        elementOrder component (index + 1) rest)))

end

/-- The steps before the first gap. -/
def beforeGap (order : List (Option Step)) : List Step :=
  (order.takeWhile Option.isSome).reduceOption

section BeforeGap

variable {order : List (Option Step)}

theorem none_notMem_map_some (code : List Step) : none ∉ code.map some := by simp

/-- Without a gap the steps are all there is. -/
@[simp] theorem beforeGap_map_some (code : List Step) : beforeGap (code.map some) = code := by
  induction code with
  | nil => rfl
  | cons s code ih =>
    rw [List.map_cons, beforeGap, List.takeWhile_cons_of_pos rfl, List.reduceOption_cons_of_some]
    exact congrArg (s :: ·) ih

/-- Steps behind an order without a gap are reached. -/
theorem beforeGap_append_of_notMem (h : none ∉ order) (more : List (Option Step)) :
    beforeGap (order ++ more) = beforeGap order ++ beforeGap more := by
  have hall : ∀ entry ∈ order, entry.isSome = true := by
    intro entry hentry
    cases entry with
    | none => exact absurd hentry h
    | some s => rfl
  rw [beforeGap, List.takeWhile_append_of_pos hall, List.reduceOption_append, beforeGap,
    List.takeWhile_eq_self_iff.mpr hall, beforeGap]

/-- Nothing behind a gap matters. -/
theorem beforeGap_append_of_mem (h : none ∈ order) (more : List (Option Step)) :
    beforeGap (order ++ more) = beforeGap order := by
  induction order with
  | nil => cases h
  | cons first order ih =>
    cases first with
    | none => rfl
    | some s =>
      have hrest : none ∈ order := by simpa using h
      rw [List.cons_append, beforeGap, List.takeWhile_cons_of_pos rfl,
        List.reduceOption_cons_of_some, beforeGap, List.takeWhile_cons_of_pos rfl,
        List.reduceOption_cons_of_some]
      exact congrArg (s :: ·) (ih hrest)

/-- An order with a gap splits at the first one. -/
theorem exists_eq_append_gap (h : none ∈ order) :
    ∃ rest, order = (beforeGap order).map some ++ none :: rest := by
  induction order with
  | nil => cases h
  | cons first order ih =>
    cases first with
    | none => exact ⟨order, rfl⟩
    | some s =>
      obtain ⟨rest, hrest⟩ := ih (by simpa using h)
      exact ⟨rest, congrArg (some s :: ·) hrest⟩

end BeforeGap

/-- How emission ends: with an error if there is a gap, and else with an effect. -/
def ending (order : List (Option Step)) (effect : StackEffect) : Except Error StackEffect :=
  if none ∈ order then .error illegalError else .ok effect

mutual

/-- Emission gives the steps before the first gap, and fails exactly if there is one. -/
theorem emitOnto_emissionOrder : (m : Manipulation) → (before : Array Step) →
    m.emitOnto before =
      (before ++ beforeGap m.emissionOrder, ending m.emissionOrder m.effect)
  | trivial, before => by
    simp [emitOnto, emissionOrder, beforeGap, ending, effect]
  | illegal, before => by
    simp [emitOnto, emissionOrder, beforeGap, ending]
  | atom a, before => by
    simp only [emitOnto, emissionOrder, ending, effect, a.emitOnto_eq, beforeGap_map_some,
      none_notMem_map_some, if_false]
  | compound members, before => by
    rw [emitOnto, emitAllOnto_memberOrder members, emissionOrder, effect]
  | arrayLiteral component elements, before => by
    simp only [emitOnto, emissionOrder, effect, ending, Atom.emitOnto_eq,
      emitElementsOnto_elementOrder elements, append_steps, List.mem_append,
      none_notMem_map_some, false_or, beforeGap_append_of_notMem, not_false_eq_true,
      beforeGap_map_some, List.append_assoc]
  | custom more effect valid, before => by
    simp only [emitOnto, emissionOrder, ending, Manipulation.effect, beforeGap_map_some,
      none_notMem_map_some, if_false]

/-- Members emit up to the first gap of any of them. -/
theorem emitAllOnto_memberOrder : (ms : List Manipulation) → (before : Array Step) →
    (done : StackEffect) → emitAllOnto before done ms =
      (before ++ beforeGap (memberOrder ms), ending (memberOrder ms) (effectAfter done ms))
  | [], before, done => by
    simp [emitAllOnto, memberOrder, beforeGap, ending, effectAfter]
  | m :: rest, before, done => by
    rw [emitAllOnto, emitOnto_emissionOrder m, memberOrder, effectAfter]
    by_cases hgap : none ∈ m.emissionOrder
    · simp only [ending, hgap, if_true, List.mem_append, true_or, beforeGap_append_of_mem hgap]
    · simp only [ending, hgap, if_false, List.mem_append, false_or,
        emitAllOnto_memberOrder rest, beforeGap_append_of_notMem hgap, append_steps]

/-- Elements emit up to the first gap of any of them. -/
theorem emitElementsOnto_elementOrder : (ms : List Manipulation) → (component : Component) →
    (index : Nat) → (before : Array Step) → (done : StackEffect) →
    emitElementsOnto component index before done ms =
      (before ++ beforeGap (elementOrder component index ms),
        ending (elementOrder component index ms) (elementEffectAfter component index done ms))
  | [], component, index, before, done => by
    simp [emitElementsOnto, elementOrder, beforeGap, ending, elementEffectAfter]
  | m :: rest, component, index, before, done => by
    simp only [emitElementsOnto, elementOrder, elementEffectAfter, Atom.emitOnto_eq,
      emitOnto_emissionOrder m]
    by_cases hgap : none ∈ m.emissionOrder
    · simp only [ending, hgap, if_true, List.mem_append, none_notMem_map_some, false_or, true_or,
        beforeGap_append_of_notMem, not_false_eq_true, beforeGap_map_some,
        beforeGap_append_of_mem hgap, append_steps, List.append_assoc]
    · simp only [ending, hgap, if_false, List.mem_append, none_notMem_map_some, false_or,
        beforeGap_append_of_notMem, not_false_eq_true, beforeGap_map_some,
        emitElementsOnto_elementOrder rest, append_steps, List.append_assoc]

end

mutual

/-- A tree of atoms is valid exactly if its emission order has no gap. -/
theorem isValid_iff_notMem : (m : Manipulation) → m.Everywhere (fun _ => True) →
    (m.isValid = true ↔ none ∉ m.emissionOrder)
  | trivial, _ => by simp [isValid, emissionOrder]
  | illegal, _ => by simp [isValid, emissionOrder]
  | atom a, _ => by simp [isValid, emissionOrder]
  | compound members, h => by
    rw [Everywhere] at h
    rw [isValid, emissionOrder]
    exact allValid_iff_notMem members h
  | arrayLiteral component elements, h => by
    rw [Everywhere] at h
    rw [isValid, emissionOrder, allValid_iff_notMem_elements elements h component 0]
    simp
  | custom .., h => by rw [Everywhere] at h; exact h.elim

/-- Members are all valid if none has a gap. -/
theorem allValid_iff_notMem : (ms : List Manipulation) → AllEverywhere (fun _ => True) ms →
    (allValid ms = true ↔ none ∉ memberOrder ms)
  | [], _ => by simp [allValid, memberOrder]
  | m :: rest, h => by
    rw [AllEverywhere] at h
    rw [allValid, memberOrder, Bool.and_eq_true, isValid_iff_notMem m h.1,
      allValid_iff_notMem rest h.2, List.mem_append, not_or]

/-- Elements are all valid if none has a gap. -/
theorem allValid_iff_notMem_elements : (ms : List Manipulation) →
    AllEverywhere (fun _ => True) ms → (component : Component) → (index : Nat) →
    (allValid ms = true ↔ none ∉ elementOrder component index ms)
  | [], _, component, index => by simp [allValid, elementOrder]
  | m :: rest, h, component, index => by
    rw [AllEverywhere] at h
    rw [allValid, elementOrder, Bool.and_eq_true, isValid_iff_notMem m h.1,
      allValid_iff_notMem_elements rest h.2 component (index + 1)]
    simp

end

variable {σ : Type}

/-- What a tree gives to a sink: the steps before the first gap. -/
theorem applyTo_emissionOrder (put : σ → Step → σ) (s : σ) (m : Manipulation) :
    m.applyTo put s =
      ((beforeGap m.emissionOrder).foldl put s, ending m.emissionOrder m.effect) := by
  rw [applyTo_eq, emit, emitOnto_emissionOrder]
  simp

/-- A tree without custom pieces, applied to any sink, reports an effect exactly if it is valid. If
it is not, it fails with an illegal state once the sink has been given the steps before the first
illegal piece. Assembly into the sink therefore never raises an error: it gives the sink what is
emitted, and of an invalid body it gives nothing and reports an illegal state. -/
theorem applyTo_ok_iff_isValid {m : Manipulation} (hm : m.Everywhere fun _ => True)
    (put : σ → Step → σ) (s : σ) :
    ((∃ effect, (m.applyTo put s).2 = .ok effect) ↔ m.isValid = true) ∧
    (m.isValid = false → ∃ (code : List Step) (rest : List (Option Step)),
      m.emissionOrder = code.map some ++ none :: rest ∧
      m.applyTo put s = (code.foldl put s, .error illegalError)) ∧
    illegalError.report?.map Report.kind = some .illegalState ∧
    ∀ (limits : Limits) (method : Method),
      assembleInto put s limits method m =
        ((emitBody limits method m).steps.foldl put s,
          .ok ((emitBody limits method m).frame, (emitBody limits method m).failure?)) ∧
      (m.isValid = false →
        assembleInto put s limits method m = (s, .ok (.zero, some (invalidBody method)))) ∧
      (invalidBody method).report?.map Report.kind = some .illegalState := by
  have hvalid := isValid_iff_notMem m hm
  refine ⟨?_, ?_, rfl, fun limits method => ⟨assembleInto_eq put s limits method m, ?_, rfl⟩⟩
  · rw [hvalid, applyTo_emissionOrder, ending]
    by_cases hgap : none ∈ m.emissionOrder <;> simp [hgap]
  · intro hinvalid
    have hgap : none ∈ m.emissionOrder := by
      by_contra hgap
      rw [hvalid.mpr hgap] at hinvalid
      cases hinvalid
    obtain ⟨rest, hrest⟩ := exists_eq_append_gap hgap
    refine ⟨beforeGap m.emissionOrder, rest, hrest, ?_⟩
    rw [applyTo_emissionOrder, ending, if_pos hgap]
  · intro hinvalid
    rw [assembleInto, hinvalid]
    rfl

/-- An array whose second element loads from a slot there is not: the sink is given the length, the
array, the whole first element, and the copy and the index for the second one. -/
theorem applyTo_ok_iff_isValid_arrayLiteral :
    let m := compose [push (.int 300), arrayLiteral (.primitive .long)
      [compound [push (.int 7), widen (.primitive .int) (.primitive .long)],
        load .long (-1), illegal], giveBack .void]
    (m.Everywhere fun _ => True) ∧ m.isValid = false ∧
      (∃ (code : List Step) (rest : List (Option Step)),
        m.emissionOrder = code.map some ++ none :: rest ∧
        m.applyTo (fun n _ => n + 1) 0 = (code.foldl (fun n _ => n + 1) 0, .error illegalError)) ∧
      (m.applyTo (fun n _ => n + 1) 0).1 = 10 := by
  intro m
  have hm : m.Everywhere fun _ => True := by
    simp [m, Everywhere, AllEverywhere, compose, push, widen, widenPrimitive, load, giveBack]
  have hinvalid : m.isValid = false := by decide
  obtain ⟨_, hstops, _⟩ := applyTo_ok_iff_isValid hm (fun n _ => n + 1) 0
  exact ⟨hm, hinvalid, hstops hinvalid, by decide⟩

end Manipulation

end OperandStack
