import OperandStack.Manipulation.Basic

/-!
# What a valid tree emits

Emission of a valid tree never fails. It appends the steps of the tree, which do not
depend on what came before, and reports the effect of the tree. Both are given here
by recursion on the tree, so that later arguments need not follow the emission.
-/

namespace OperandStack

/-- The steps of an atom: one, or none for the copy or the drop of no value. -/
def Atom.steps (a : Atom) : List Step := a.step?.toList

/-- An atom appends its steps, whatever came before. -/
theorem Atom.emitOnto_eq (a : Atom) (before : Array Step) :
    a.emitOnto before = before ++ a.steps := by
  unfold Atom.emitOnto Atom.steps
  cases a.step? <;> simp

namespace Manipulation

mutual

/-- The steps of a tree, left to right. -/
def steps : Manipulation → List Step
  | trivial => []
  | illegal => []
  | atom a => a.steps
  | compound members => allSteps members
  | arrayLiteral component elements =>
    (pushInt elements.length).steps ++
      ((Atom.createArray component).steps ++ elementSteps component 0 elements)
  | custom more _ _ => more

/-- The steps of several trees in order. -/
def allSteps : List Manipulation → List Step
  | [] => []
  | m :: rest => m.steps ++ allSteps rest

/-- The steps that store elements into an array from an index on. -/
def elementSteps (component : Component) (index : Nat) : List Manipulation → List Step
  | [] => []
  | m :: rest =>
    (Atom.duplicate .single).steps ++ ((pushInt index).steps ++ (m.steps ++
      ((Atom.storeElement component).steps ++ elementSteps component (index + 1) rest)))

end

mutual

/-- The effect of a tree. -/
def effect : Manipulation → StackEffect
  | trivial => .zero
  | illegal => .zero
  | atom a => a.effect
  | compound members => effectAfter .zero members
  | arrayLiteral component elements =>
    elementEffectAfter component 0
      ((pushInt elements.length).effect.followedBy (Atom.createArray component).effect) elements
  | custom _ effect _ => effect

/-- The effect of several trees behind the effect of those before them. -/
def effectAfter (before : StackEffect) : List Manipulation → StackEffect
  | [] => before
  | m :: rest => effectAfter (before.followedBy m.effect) rest

/-- The effect of storing elements, behind the effect of what came before. -/
def elementEffectAfter (component : Component) (index : Nat) (before : StackEffect) :
    List Manipulation → StackEffect
  | [] => before
  | m :: rest =>
    elementEffectAfter component (index + 1)
      ((((before.followedBy (Atom.duplicate .single).effect).followedBy
        (pushInt index).effect).followedBy m.effect).followedBy
          (Atom.storeElement component).effect) rest

end

/-- The steps of several pieces follow each other. -/
theorem allSteps_eq (ms : List Manipulation) : allSteps ms = ms.flatMap steps := by
  induction ms with
  | nil => rfl
  | cons m rest ih => rw [allSteps, ih, List.flatMap_cons]

/-- Several pieces are valid if each of them is. -/
theorem allValid_iff {ms : List Manipulation} :
    allValid ms = true ↔ ∀ m ∈ ms, m.isValid = true := by
  induction ms with
  | nil => simp [allValid]
  | cons m rest ih => rw [allValid, Bool.and_eq_true, ih, List.forall_mem_cons]

/-- Composition changes the nesting and not the steps. -/
theorem steps_compose (ms : List Manipulation) : (compose ms).steps = ms.flatMap steps := by
  rw [compose, steps, allSteps_eq, List.flatMap_assoc]
  congr 1
  funext m
  split
  · rw [steps, allSteps_eq]
  · rw [List.flatMap_singleton]

/-- A composition is valid exactly if its members are. -/
theorem isValid_compose {ms : List Manipulation} :
    (compose ms).isValid = true ↔ ∀ m ∈ ms, m.isValid = true := by
  rw [compose, isValid, allValid_iff, List.forall_mem_flatMap]
  refine forall₂_congr fun m _ => ?_
  split
  · rw [isValid, allValid_iff]
  · rw [List.forall_mem_singleton]

/-- Appending a list twice to an array appends both in order. -/
theorem append_steps (before : Array Step) (first second : List Step) :
    before ++ first ++ second = before ++ (first ++ second) := by
  apply Array.ext'
  simp only [Array.toList_appendList, List.append_assoc]

mutual

/-- A valid tree emits its steps behind what came before, and reports its effect. -/
theorem emitOnto_eq : (m : Manipulation) → m.isValid = true → (before : Array Step) →
    m.emitOnto before = (before ++ m.steps, .ok m.effect)
  | trivial, _, before => by simp [emitOnto, steps, effect]
  | illegal, h, before => by simp [isValid] at h
  | atom a, _, before => by simp only [emitOnto, steps, effect, a.emitOnto_eq]
  | compound members, h, before => by
    rw [emitOnto, emitAllOnto_eq members (by simpa only [isValid] using h), steps, effect]
  | arrayLiteral component elements, h, before => by
    simp only [emitOnto, Atom.emitOnto_eq]
    rw [emitElementsOnto_eq elements (by simpa only [isValid] using h), steps, effect]
    simp only [append_steps, List.append_assoc]
  | custom more effect valid, _, before => by simp only [emitOnto, steps, Manipulation.effect]

/-- Valid members append their steps one after another, and their effects add up in turn. -/
theorem emitAllOnto_eq : (ms : List Manipulation) → allValid ms = true →
    ∀ {before : Array Step} {done : StackEffect},
      emitAllOnto before done ms = (before ++ allSteps ms, .ok (effectAfter done ms))
  | [], _, before, done => by simp [emitAllOnto, allSteps, effectAfter]
  | m :: rest, h, before, done => by
    rw [allValid, Bool.and_eq_true] at h
    simp only [emitAllOnto, emitOnto_eq m h.1, emitAllOnto_eq rest h.2, allSteps, effectAfter,
      append_steps]

/-- Valid elements do so with the steps that store them in between. -/
theorem emitElementsOnto_eq : (ms : List Manipulation) → allValid ms = true →
    ∀ {component : Component} {index : Nat} {before : Array Step} {done : StackEffect},
      emitElementsOnto component index before done ms =
        (before ++ elementSteps component index ms,
          .ok (elementEffectAfter component index done ms))
  | [], _, _, _, before, done => by simp [emitElementsOnto, elementSteps, elementEffectAfter]
  | m :: rest, h, component, index, before, done => by
    rw [allValid, Bool.and_eq_true] at h
    simp only [emitElementsOnto, Atom.emitOnto_eq, emitOnto_eq m h.1, emitElementsOnto_eq rest h.2,
      elementSteps, elementEffectAfter, append_steps, List.append_assoc]

end

/-- Emission of a valid tree. -/
theorem emit_eq {m : Manipulation} (h : m.isValid = true) :
    m.emit = (m.steps.toArray, .ok m.effect) := by
  rw [emit, emitOnto_eq m h]
  simp

end Manipulation

end OperandStack
