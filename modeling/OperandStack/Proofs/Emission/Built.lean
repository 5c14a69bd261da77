import OperandStack.Manipulation.Access
import OperandStack.Manipulation.Assign
import OperandStack.Proofs.Invocation.Retargeting
import OperandStack.Proofs.Machine.Descriptor

/-!
# Trees built by the library

The trees that the library's own constructors give, as opposed to trees with custom
steps or with atoms that nothing builds. Fields and methods come in with descriptors
that can be read. All that later arguments need to know of such a tree is that each
of its atoms is regular.
-/

namespace OperandStack

/-- The sizes of no value and of the values there are. -/
def ValueSize.Usual (s : ValueSize) : Prop := s = .zero ∨ s = .single ∨ s = .double

/-- A value takes one slot or two. -/
theorem Computational.size_usual (c : Computational) : c.size.Usual := by
  cases c <;> first | exact Or.inr (Or.inl rfl) | exact Or.inr (Or.inr rfl)

/-- Types have the sizes that their values have, and `void` has none. -/
theorem TypeDesc.size_usual (t : TypeDesc) : t.size.Usual := by
  cases h : t.sort? with
  | none =>
    rw [size_of_void h]
    exact Or.inl rfl
  | some c =>
    rw [size_of_sort? h]
    exact c.size_usual

namespace Invocation

/-- The calls that the library gives: of a method on its owner, and aimed elsewhere from there. -/
inductive Obtained : Invocation → Prop where
  | ofMethod {m : Method} {i : Invocation} (h : ofMethod m = .ok i) : Obtained i
  | virtual {i j : Invocation} {target : TypeDesc} (hi : Obtained i)
      (h : i.virtual target = .ok j) : Obtained j
  | special {i j : Invocation} {target : TypeDesc} (hi : Obtained i)
      (h : i.special target = .ok j) : Obtained j
  | retarget {i j : Invocation} {mode : Mode} {target : TypeDesc} (hi : Obtained i)
      (h : i.retarget mode target = .ok j) : Obtained j

/-- A mode that agrees with the method: it is static exactly if the method is. -/
def ModeFits (i : Invocation) : Prop := i.mode = .static ↔ i.method.isStatic = true

/-- A call of exactly the target's method is of the same method, which has a receiver. -/
theorem special_eq_ok {i j : Invocation} {target : TypeDesc} (h : i.special target = .ok j) :
    j.method = i.method ∧ i.method.isStatic = false ∧ j.ModeFits := by
  obtain ⟨hcheck, rfl, hcallable⟩ := special_eq_ok_iff.mp h
  obtain ⟨hstatic, hsub⟩ := checkTarget_eq_ok_iff.mp hcheck
  exact ⟨rfl, hstatic, (wellFormed_special hstatic hsub hcallable).static_iff⟩

/-- The first call of a method is in a mode that fits it. -/
theorem ofMethod_eq_ok {m : Method} {i : Invocation} (h : ofMethod m = .ok i) :
    i.method = m ∧ i.ModeFits := by
  obtain ⟨_, rfl⟩ := ofMethod_eq_ok_iff.mp h
  exact ⟨rfl, (wellFormed_modeOf m).static_iff⟩

/-- However a call was obtained, its mode agrees with its method: static methods are never aimed
elsewhere. -/
theorem Obtained.modeFits {i : Invocation} (h : i.Obtained) : i.ModeFits := by
  have hwell : i.WellFormed := by
    induction h with
    | ofMethod h =>
      obtain ⟨_, rfl⟩ := ofMethod_eq_ok_iff.mp h
      exact wellFormed_modeOf _
    | virtual _ h ih => exact ih.step (Or.inl ⟨_, h⟩)
    | special _ h ih => exact ih.step (Or.inr (Or.inl ⟨_, h⟩))
    | retarget _ h ih => exact ih.step (Or.inr (Or.inr ⟨_, _, h⟩))
  exact hwell.static_iff

end Invocation

namespace Atom

/-- What the library promises of the atoms it builds: usual sizes, calls that find a receiver
exactly if the method has one, variables at slots there are, and descriptors that can be read. -/
def Regular : Atom → Prop
  | duplicate size => size.Usual
  | duplicateUnder size under => (size.Usual ∧ size ≠ .zero) ∧ under.Usual ∧ under ≠ .zero
  | discard size => size.Usual
  | readField f => f.type.IsValue
  | writeField f => f.type.IsValue
  | invoke i => i.ModeFits ∧ i.method.Regular
  | load _ slot => 0 ≤ slot
  | store _ slot => 0 ≤ slot
  | increment slot _ => 0 ≤ slot
  | _ => True

end Atom

namespace Manipulation

mutual

/-- Whether all atoms of a tree have a property, and there is nothing but atoms in it. -/
def Everywhere (P : Atom → Prop) : Manipulation → Prop
  | trivial => True
  | illegal => True
  | atom a => P a
  | compound members => AllEverywhere P members
  | arrayLiteral _ elements => AllEverywhere P elements
  | custom .. => False

/-- Whether all atoms of several trees have a property. -/
def AllEverywhere (P : Atom → Prop) : List Manipulation → Prop
  | [] => True
  | m :: rest => m.Everywhere P ∧ AllEverywhere P rest

end

variable {P Q R : Atom → Prop}

theorem allEverywhere_iff {ms : List Manipulation} :
    AllEverywhere P ms ↔ ∀ m ∈ ms, m.Everywhere P := by
  induction ms with
  | nil => simp [AllEverywhere]
  | cons m rest ih => simp only [AllEverywhere, ih, List.forall_mem_cons]

mutual

/-- What follows from two properties of an atom follows for all atoms of a tree. -/
theorem Everywhere.combine (hR : ∀ a, P a → Q a → R a) : {m : Manipulation} →
    m.Everywhere P → m.Everywhere Q → m.Everywhere R
  | trivial, _, _ => by simp only [Everywhere]
  | illegal, _, _ => by simp only [Everywhere]
  | atom a, hP, hQ => by
    simp only [Everywhere] at hP hQ ⊢
    exact hR a hP hQ
  | compound members, hP, hQ => by
    simp only [Everywhere] at hP hQ ⊢
    exact AllEverywhere.combine hR hP hQ
  | arrayLiteral component elements, hP, hQ => by
    simp only [Everywhere] at hP hQ ⊢
    exact AllEverywhere.combine hR hP hQ
  | custom .., hP, _ => by simp only [Everywhere] at hP

/-- The same for the atoms of several trees. -/
theorem AllEverywhere.combine (hR : ∀ a, P a → Q a → R a) : {ms : List Manipulation} →
    AllEverywhere P ms → AllEverywhere Q ms → AllEverywhere R ms
  | [], _, _ => by simp only [AllEverywhere]
  | m :: rest, hP, hQ => by
    simp only [AllEverywhere] at hP hQ ⊢
    exact ⟨Everywhere.combine hR hP.1 hQ.1, AllEverywhere.combine hR hP.2 hQ.2⟩

end

/-- Composition changes the nesting and not the atoms. -/
theorem everywhere_compose {ms : List Manipulation} :
    (compose ms).Everywhere P ↔ ∀ m ∈ ms, m.Everywhere P := by
  rw [compose, Everywhere, allEverywhere_iff, List.forall_mem_flatMap]
  refine forall₂_congr fun m _ => ?_
  split
  · rw [Everywhere, allEverywhere_iff]
  · rw [List.forall_mem_singleton]

/-- The trees that the library's constructors give. -/
inductive Built : Manipulation → Prop where
  | trivial : Built trivial
  | illegal : Built illegal
  | compose {ms : List Manipulation} (h : ∀ m ∈ ms, Built m) : Built (compose ms)
  | compound {ms : List Manipulation} (h : ∀ m ∈ ms, Built m) : Built (compound ms)
  | throwTop : Built (atom .throwTop)
  | duplicate {size : ValueSize} (h : size.Usual) : Built (atom (.duplicate size))
  | duplicateUnder {size under : ValueSize} (hsize : size.Usual) (hunder : under.Usual) :
      Built (duplicateUnder size under)
  | discard {size : ValueSize} (h : size.Usual) : Built (atom (.discard size))
  | push (l : Literal) : Built (push l)
  | pushDefault (t : TypeDesc) : Built (pushDefault t)
  | widen (source target : Kind) : Built (widen source target)
  | box (k : Kind) : Built (box k)
  | unbox (k : Kind) : Built (unbox k)
  | cast (t : TypeDesc) : Built (cast t)
  | assign (source target : TypeDesc) (dynamic : Bool) : Built (assign source target dynamic)
  | readField {f : Field} (h : f.type.IsValue) : Built (atom (.readField f))
  | writeField {f : Field} (h : f.type.IsValue) : Built (atom (.writeField f))
  | invoke {i : Invocation} (hi : i.Obtained) (h : i.method.Regular) : Built (atom (.invoke i))
  | load (c : Computational) (slot : Int64) : Built (load c slot)
  | store (c : Computational) (slot : Int64) : Built (store c slot)
  | increment (slot : Int64) (delta : Int32) : Built (increment slot delta)
  | loadArguments (m : Method) : Built (loadArguments m)
  | loadParameters (m : Method) : Built (loadParameters m)
  | loadParameter {m : Method} {i : Int64} {value : Manipulation}
      (h : loadParameter m i = .ok value) : Built value
  | giveBack (t : TypeDesc) : Built (giveBack t)
  | create (t : TypeDesc) : Built (create t)
  | createArray {t : TypeDesc} {c : Component} (h : component t = .ok c) :
      Built (atom (.createArray c))
  | arrayLiteral {t : TypeDesc} {c : Component} {ms : List Manipulation}
      (hc : component t = .ok c) (h : ∀ m ∈ ms, Built m) : Built (arrayLiteral c ms)
  | loadElement (t : TypeDesc) : Built (loadElement t)
  | storeElement (t : TypeDesc) : Built (storeElement t)
  | arrayLength : Built (atom .arrayLength)

/-- Widening takes one conversion at most. -/
theorem widenPrimitive_everywhere (p q : Primitive) :
    (widenPrimitive p q).Everywhere Atom.Regular := by
  cases p <;> cases q <;> simp [widenPrimitive, Everywhere, Atom.Regular]

/-- References are assigned by a cast, or by nothing. -/
theorem assignReference_everywhere (source target : TypeDesc) (dynamic : Bool) :
    (assignReference source target dynamic).Everywhere Atom.Regular := by
  unfold assignReference cast
  repeat' split
  all_goals simp [Everywhere, Atom.Regular]

theorem pushDefault_everywhere (t : TypeDesc) : (pushDefault t).Everywhere Atom.Regular := by
  unfold pushDefault push
  split <;> simp [Everywhere, Atom.Regular]

/-- Unwrapping is a call, behind a cast or before a widening. -/
theorem assignUnboxed_everywhere (source : TypeDesc) (target : Primitive) (dynamic : Bool) :
    (assignUnboxed source target dynamic).Everywhere Atom.Regular := by
  unfold assignUnboxed
  split
  · next p _ =>
    rw [everywhere_compose]
    simp only [List.forall_mem_cons]
    refine ⟨by simp [Everywhere, Atom.Regular], widenPrimitive_everywhere p target, by simp⟩
  · split
    · rw [everywhere_compose]
      unfold cast
      split <;> simp [Everywhere, Atom.Regular]
    · simp [Everywhere]

/-- Every assignment is made of regular atoms, those that are refused included. -/
theorem assign_everywhere (source target : TypeDesc) (dynamic : Bool) :
    (assign source target dynamic).Everywhere Atom.Regular := by
  unfold assign
  split
  · simp [Everywhere]
  · split
    · exact pushDefault_everywhere target
    · simp [Everywhere]
  · simp only [Everywhere]
    exact source.size_usual
  · exact widenPrimitive_everywhere _ _
  · next p _ _ =>
    rw [everywhere_compose]
    simp only [List.forall_mem_cons]
    refine ⟨by simp [Everywhere, Atom.Regular], assignReference_everywhere _ _ _, by simp⟩
  · exact assignUnboxed_everywhere _ _ _
  · exact assignReference_everywhere _ _ _

/-- An atom that is built only for slots there are. -/
private theorem atSlot_everywhere {slot : Int64} {a : Atom} (h : 0 ≤ slot → a.Regular) :
    (if slot < 0 then illegal else atom a).Everywhere Atom.Regular := by
  split
  · simp [Everywhere]
  · next hslot =>
    rw [Everywhere]
    exact h (Int64.not_lt.mp hslot)

theorem load_everywhere (c : Computational) (slot : Int64) :
    (load c slot).Everywhere Atom.Regular :=
  atSlot_everywhere id

/-- Parameters are loaded by regular atoms, one each at most. -/
theorem loadFrom_everywhere (types : List TypeDesc) (slot : Nat) :
    ∀ m ∈ loadFrom slot types, m.Everywhere Atom.Regular := by
  induction types generalizing slot with
  | nil => simp [loadFrom]
  | cons t rest ih =>
    unfold loadFrom
    split
    · rw [List.forall_mem_cons]
      exact ⟨load_everywhere _ _, ih _⟩
    · rw [List.forall_mem_cons]
      exact ⟨by simp [Everywhere], ih _⟩

theorem loadParameters_everywhere (m : Method) : (loadParameters m).Everywhere Atom.Regular :=
  everywhere_compose.mpr (loadFrom_everywhere m.parameters m.firstSlot)

theorem loadArguments_everywhere (m : Method) : (loadArguments m).Everywhere Atom.Regular := by
  unfold loadArguments
  rw [everywhere_compose, List.forall_mem_append, List.forall_mem_singleton]
  refine ⟨?_, loadParameters_everywhere m⟩
  split
  · simp
  · rw [List.forall_mem_singleton]
    exact load_everywhere .reference 0

/-- A parameter that can be pushed is pushed by a load of its own slot. -/
theorem loadParameter_eq_ok {m : Method} {i : Int64} {value : Manipulation}
    (h : loadParameter m i = .ok value) : 0 ≤ i ∧ ∃ t c slot,
      m.parameters[i.toInt.toNat]? = some t ∧ t.sort? = some c ∧
      m.parameterSlot? i.toInt.toNat = some slot ∧ value = load c (Int64.ofNat slot) := by
  unfold loadParameter at h
  split at h
  · cases h
  · next hnonneg =>
    refine ⟨Int64.not_lt.mp hnonneg, ?_⟩
    split at h
    · next t slot ht hslot =>
      obtain ⟨c, hc, hvalue⟩ := exists_ok_of_bind h
      unfold localSort at hc
      split at hc
      · next hsort =>
        cases hc
        cases hvalue
        exact ⟨t, _, slot, ht, hsort, hslot, rfl⟩
      · cases hc
    · cases h

/-- Every atom of a built tree is regular. -/
theorem Built.everywhere {m : Manipulation} (h : m.Built) : m.Everywhere Atom.Regular := by
  induction h with
  | compose _ ih => exact everywhere_compose.mpr ih
  | compound _ ih => rw [Everywhere]; exact allEverywhere_iff.mpr ih
  | arrayLiteral _ _ ih => rw [Everywhere]; exact allEverywhere_iff.mpr ih
  | duplicate h => rw [Everywhere]; exact h
  | discard h => rw [Everywhere]; exact h
  | duplicateUnder hsize hunder =>
    unfold Manipulation.duplicateUnder
    split
    · simp [Everywhere]
    · next hne =>
      split
      · rw [Everywhere]
        exact hsize
      · next hunder' =>
        rw [Everywhere]
        exact ⟨⟨hsize, hne⟩, hunder, hunder'⟩
  | readField h => rw [Everywhere]; exact h
  | writeField h => rw [Everywhere]; exact h
  | invoke hi h => rw [Everywhere]; exact ⟨hi.modeFits, h⟩
  | load c slot => exact load_everywhere c slot
  | store c slot => exact atSlot_everywhere id
  | increment slot delta => exact atSlot_everywhere id
  | loadArguments m => exact loadArguments_everywhere m
  | loadParameters m => exact loadParameters_everywhere m
  | loadParameter h =>
    obtain ⟨_, _, c, slot, _, _, _, rfl⟩ := loadParameter_eq_ok h
    exact load_everywhere c (Int64.ofNat slot)
  | assign source target dynamic => exact assign_everywhere source target dynamic
  | pushDefault t => exact pushDefault_everywhere t
  | widen source target =>
    unfold Manipulation.widen
    split
    · exact widenPrimitive_everywhere _ _
    · simp [Everywhere]
  | box k => unfold Manipulation.box; split <;> simp [Everywhere, Atom.Regular]
  | unbox k => unfold Manipulation.unbox; split <;> simp [Everywhere, Atom.Regular]
  | cast t => unfold Manipulation.cast; split <;> simp [Everywhere, Atom.Regular]
  | create t => unfold Manipulation.create; split <;> simp [Everywhere, Atom.Regular]
  | loadElement t => unfold Manipulation.loadElement; split <;> simp [Everywhere, Atom.Regular]
  | storeElement t => unfold Manipulation.storeElement; split <;> simp [Everywhere, Atom.Regular]
  | _ => simp [Everywhere, Atom.Regular, Manipulation.push, Manipulation.giveBack]

end Manipulation

end OperandStack
