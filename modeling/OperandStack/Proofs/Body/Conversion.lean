import OperandStack.Proofs.Machine.Sorts

/-!
# Conversions on the machine of sorts

A valid assignment of one type to another turns a value of the sort of the first into
a value of the sort of the second. Where one of them is `void`, there is no value on
that side.
-/

namespace OperandStack

/-- Types are `void`, primitive or references. -/
theorem TypeDesc.kind_cases (t : TypeDesc) :
    t.kind = .void ∨ (∃ p, t.kind = .primitive p) ∨ t.kind = .reference := by
  cases t with
  | void => exact Or.inl rfl
  | primitive p => exact Or.inr (Or.inl ⟨p, rfl⟩)
  | declared name modifiers superClass interfaces => exact Or.inr (Or.inr rfl)
  | array component => exact Or.inr (Or.inr rfl)

/-- There are no values of type `void`. -/
theorem TypeDesc.sort?_of_void {t : TypeDesc} (h : t.kind = .void) : t.sort? = none := by
  rw [sort?, h]
  rfl

/-- Values of a primitive type are of the sort of that type. -/
theorem TypeDesc.sort?_of_primitive {t : TypeDesc} {p : Primitive} (h : t.kind = .primitive p) :
    t.sort? = some p.sort := by
  rw [sort?, h]
  cases p <;> rfl

/-- Values of all other types are references. -/
theorem TypeDesc.sort?_of_reference {t : TypeDesc} (h : t.kind = .reference) :
    t.sort? = some .reference := by
  rw [sort?, h]
  rfl

namespace Manipulation

variable {locals : Nat → Option Computational}

theorem moves_push (l : Literal) : Moves locals (push l).steps [] [l.sort] :=
  Atom.moves_exchange (a := .push l) True.intro rfl

/-- The default of a type is a value of its sort, nothing for `void`. -/
theorem moves_pushDefault (t : TypeDesc) :
    Moves locals (pushDefault t).steps [] t.sort?.toList := by
  have hdefault : (Literal.default? t.kind).map Literal.sort = t.sort? := by
    unfold TypeDesc.sort?
    rcases t.kind_cases with h | ⟨p, h⟩ | h
    · rw [h]
      rfl
    · rw [h]
      cases p <;> rfl
    · rw [h]
      rfl
  unfold pushDefault
  split
  · next l hl =>
    rw [hl] at hdefault
    rw [← hdefault]
    exact moves_push l
  · next hnone =>
    rw [hnone] at hdefault
    rw [← hdefault]
    exact .nil locals []

/-- A widening is refused, changes no sort, or is one conversion between the two sorts. -/
private theorem widenPrimitive_cases (p q : Primitive) :
    widenPrimitive p q = illegal ∨ (widenPrimitive p q = trivial ∧ p.sort = q.sort) ∨
      ∃ c, widenPrimitive p q = atom (.convert c) ∧ c.source = p.sort ∧ c.target = q.sort := by
  cases p <;> cases q <;>
    first
    | exact Or.inl rfl
    | exact Or.inr (Or.inl ⟨rfl, rfl⟩)
    | exact Or.inr (Or.inr ⟨_, rfl, rfl, rfl⟩)

/-- A valid widening turns the sort of one type into that of the other. -/
theorem moves_widenPrimitive {p q : Primitive} (h : (widenPrimitive p q).isValid = true) :
    Moves locals (widenPrimitive p q).steps [p.sort] [q.sort] := by
  rcases widenPrimitive_cases p q with
    hillegal | ⟨htrivial, hsort⟩ | ⟨c, hconvert, hsource, htarget⟩
  · rw [hillegal, isValid] at h
    cases h
  · rw [htrivial, hsort]
    exact .nil locals [q.sort]
  · rw [hconvert, ← hsource, ← htarget]
    exact Atom.moves_exchange (a := .convert c) True.intro rfl

/-- A cast leaves a reference where one was. -/
theorem moves_cast {t : TypeDesc} (h : (cast t).isValid = true) :
    Moves locals (cast t).steps [.reference] [.reference] := by
  unfold cast at h ⊢
  by_cases href : t.isReference = true
  · rw [if_pos href]
    exact Atom.moves_exchange (a := .cast t) True.intro rfl
  · rw [if_neg href, isValid] at h
    cases h

theorem moves_box (p : Primitive) : Moves locals (atom (.box p)).steps [p.sort] [.reference] :=
  Atom.moves_exchange (a := .box p) True.intro rfl

theorem moves_unbox (p : Primitive) : Moves locals (atom (.unbox p)).steps [.reference] [p.sort] :=
  Atom.moves_exchange (a := .unbox p) True.intro rfl

/-- Assigning a reference leaves a reference, be it cast or not. -/
theorem moves_assignReference {source target : TypeDesc} {dynamic : Bool}
    (h : (assignReference source target dynamic).isValid = true) :
    Moves locals (assignReference source target dynamic).steps [.reference] [.reference] := by
  unfold assignReference at h ⊢
  by_cases hsubtype : target.isAssignableFrom source = true
  · rw [if_pos hsubtype]
    exact .nil locals [.reference]
  · rw [if_neg hsubtype] at h ⊢
    by_cases hdynamic : dynamic = true
    · rw [if_pos hdynamic] at h ⊢
      exact moves_cast h
    · rw [if_neg hdynamic, isValid] at h
      cases h

/-- Two pieces put together do what they do in turn. -/
theorem moves_compose_pair {first second : Manipulation} {xs ys zs : List Computational}
    (hfirst : Moves locals first.steps xs ys) (hsecond : Moves locals second.steps ys zs) :
    Moves locals (compose [first, second]).steps xs zs := by
  rw [steps_compose, List.flatMap_cons, List.flatMap_singleton]
  exact hfirst.append hsecond

/-- Two pieces in turn are valid only if both are. -/
theorem isValid_compose_pair {first second : Manipulation}
    (h : (compose [first, second]).isValid = true) :
    first.isValid = true ∧ second.isValid = true := by
  rw [isValid_compose, List.forall_mem_cons, List.forall_mem_singleton] at h
  exact h

/-- A reference that is unwrapped becomes a value of the primitive sort that is asked for, widened
if it has to be. -/
theorem moves_assignUnboxed {source : TypeDesc} {target : Primitive} {dynamic : Bool}
    (h : (assignUnboxed source target dynamic).isValid = true) :
    Moves locals (assignUnboxed source target dynamic).steps [.reference] [target.sort] := by
  unfold assignUnboxed at h ⊢
  cases hunwrap : source.unwrap? with
  | some p =>
    simp only [hunwrap] at h ⊢
    exact moves_compose_pair (moves_unbox p) (moves_widenPrimitive (isValid_compose_pair h).2)
  | none =>
    simp only [hunwrap] at h ⊢
    by_cases hdynamic : dynamic = true
    · rw [if_pos hdynamic] at h ⊢
      exact moves_compose_pair (moves_cast (isValid_compose_pair h).1) (moves_unbox target)
    · rw [if_neg hdynamic, isValid] at h
      cases h

/-- A valid assignment turns a value of one sort into a value of the other. -/
theorem moves_assign {source target : TypeDesc} {dynamic : Bool}
    (h : (assign source target dynamic).isValid = true) :
    Moves locals (assign source target dynamic).steps source.sort?.toList target.sort?.toList := by
  rcases source.kind_cases with hs | ⟨p, hs⟩ | hs
  · rw [TypeDesc.sort?_of_void hs]
    rcases target.kind_cases with ht | hvalue
    · simp only [assign, hs, ht, TypeDesc.sort?_of_void ht]
      exact .nil locals []
    · by_cases hdynamic : dynamic = true
      · have hassign : assign source target dynamic = pushDefault target := by
          rcases hvalue with ⟨q, ht⟩ | ht <;> simp only [assign, hs, ht, hdynamic, if_true]
        rw [hassign]
        exact moves_pushDefault target
      · have hassign : assign source target dynamic = illegal := by
          rcases hvalue with ⟨q, ht⟩ | ht <;> simp [assign, hs, ht, hdynamic]
        rw [hassign, isValid] at h
        cases h
  · rw [TypeDesc.sort?_of_primitive hs]
    rcases target.kind_cases with ht | ⟨q, ht⟩ | ht
    · simp only [assign, hs, ht, TypeDesc.sort?_of_void ht,
        TypeDesc.size_of_sort? (TypeDesc.sort?_of_primitive hs)]
      exact Atom.moves_discard p.sort
    · simp only [assign, hs, ht] at h ⊢
      rw [TypeDesc.sort?_of_primitive ht]
      exact moves_widenPrimitive h
    · simp only [assign, hs, ht] at h ⊢
      rw [TypeDesc.sort?_of_reference ht]
      exact moves_compose_pair (moves_box p) (moves_assignReference (isValid_compose_pair h).2)
  · rw [TypeDesc.sort?_of_reference hs]
    rcases target.kind_cases with ht | ⟨q, ht⟩ | ht
    · simp only [assign, hs, ht, TypeDesc.sort?_of_void ht,
        TypeDesc.size_of_sort? (TypeDesc.sort?_of_reference hs)]
      exact Atom.moves_discard .reference
    · simp only [assign, hs, ht] at h ⊢
      rw [TypeDesc.sort?_of_primitive ht]
      exact moves_assignUnboxed h
    · simp only [assign, hs, ht] at h ⊢
      rw [TypeDesc.sort?_of_reference ht]
      exact moves_assignReference h

end Manipulation

end OperandStack
