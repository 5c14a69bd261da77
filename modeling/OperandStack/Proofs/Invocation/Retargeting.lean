import Mathlib.Logic.Relation
import OperandStack.Manipulation.Basic
import OperandStack.Proofs.Type.Order

/-!
# Calls aimed elsewhere

A call starts out on the owner of its method and may be aimed at other types, any number
of times. Here is said exactly when each way of aiming succeeds and what it gives. From
this follows what all calls have in common that can be come by in this way: their mode
suits the method and the target, and the target is a subtype of the owner. What a call was
aimed at before does not matter, except to the methods of the root type.
-/

namespace OperandStack.Invocation

variable {i j : Invocation} {m : Method} {target : TypeDesc}

/-- A target is let through for a method with a receiver if it is a subtype of the owner. -/
theorem checkTarget_eq_ok_iff : i.checkTarget target = .ok () ↔
    i.method.isStatic = false ∧ i.method.owner.isAssignableFrom target = true := by
  unfold checkTarget
  split
  · next hstatic => simp [hstatic]
  · next hstatic =>
    split
    · next hsub => simp [hstatic, hsub]
    · next hsub => simp [hsub]

/-- All methods but type initializers can be called on their owner. -/
theorem ofMethod_eq_ok_iff :
    ofMethod m = .ok i ↔ m.isInitializer = false ∧ i = ⟨m, m.owner, modeOf m⟩ := by
  unfold Invocation.ofMethod
  split
  · next hinitializer => simp [hinitializer]
  · next hinitializer =>
    rw [Except.ok.injEq, eq_comm]
    simp [hinitializer]

/-- Dispatch on the receiver is open to methods that are neither private nor constructors. On an
interface the methods of the root type stay with the call they had. -/
theorem virtual_eq_ok_iff : i.virtual target = .ok j ↔
    i.checkTarget target = .ok () ∧ (i.method.isPrivate || i.method.isConstructor) = false ∧
      (target.isInterface = true ∧ i.method.owner.same .object = true ∧ j = i ∨
        target.isInterface = true ∧ i.method.owner.same .object = false ∧
          j = ⟨i.method, target, .interface⟩ ∨
        target.isInterface = false ∧ j = ⟨i.method, target, .virtual⟩) := by
  constructor
  · intro h
    obtain ⟨_, hcheck, h⟩ := exists_ok_of_bind h
    refine ⟨hcheck, ?_⟩
    split at h
    · cases h
    · next hopen =>
      refine ⟨Bool.eq_false_iff.mpr hopen, ?_⟩
      split at h
      · next hinterface =>
        split at h
        · next hroot =>
          cases h
          exact Or.inl ⟨hinterface, hroot, rfl⟩
        · next hroot =>
          cases h
          exact Or.inr (Or.inl ⟨hinterface, Bool.eq_false_iff.mpr hroot, rfl⟩)
      · next hclass =>
        cases h
        exact Or.inr (Or.inr ⟨Bool.eq_false_iff.mpr hclass, rfl⟩)
  · rintro ⟨hcheck, hopen, hcases⟩
    unfold Invocation.virtual
    rw [hcheck, hopen]
    obtain ⟨hinterface, hroot, rfl⟩ | ⟨hinterface, hroot, rfl⟩ | ⟨hclass, rfl⟩ := hcases
    · rw [hinterface, hroot]
      rfl
    · rw [hinterface, hroot]
      rfl
    · rw [hclass]
      rfl

/-- Exactly the target's method can be called if it is the owner's own, or if it is open and has an
implementation. -/
theorem special_eq_ok_iff : i.special target = .ok j ↔
    i.checkTarget target = .ok () ∧ j = ⟨i.method, target, .special⟩ ∧
      ((i.method.isPrivate || i.method.isConstructor) = true ∧
          i.method.owner.same target = true ∨
        (i.method.isPrivate || i.method.isConstructor) = false ∧
          i.method.isAbstract = false) := by
  constructor
  · intro h
    obtain ⟨_, hcheck, h⟩ := exists_ok_of_bind h
    refine ⟨hcheck, ?_⟩
    split at h
    · next hbound =>
      split at h
      · next howner =>
        cases h
        exact ⟨rfl, Or.inl ⟨hbound, howner⟩⟩
      · cases h
    · next hopen =>
      split at h
      · cases h
      · next habstract =>
        cases h
        exact ⟨rfl, Or.inr ⟨Bool.eq_false_iff.mpr hopen, Bool.eq_false_iff.mpr habstract⟩⟩
  · rintro ⟨hcheck, rfl, ⟨hbound, howner⟩ | ⟨hopen, habstract⟩⟩
    · unfold special
      rw [hcheck, hbound, howner]
      rfl
    · unfold special
      rw [hcheck, hopen, habstract]
      rfl

/-- A call can be aimed elsewhere in two ways only; every other mode is refused. -/
theorem retarget_eq_ok {mode : Mode} (h : i.retarget mode target = .ok j) :
    i.virtual target = .ok j ∨ i.special target = .ok j := by
  unfold retarget at h
  split at h
  · exact Or.inl h
  · exact Or.inl h
  · exact Or.inr h
  · split at h <;> cases h

/-- One call is aimed elsewhere and gives another. -/
def Retargets (i j : Invocation) : Prop :=
  (∃ target, i.virtual target = .ok j) ∨ (∃ target, i.special target = .ok j) ∨
    ∃ mode target, i.retarget mode target = .ok j

/-- Aiming in a mode is one of the two other ways. -/
theorem Retargets.cases (h : i.Retargets j) :
    ∃ target, i.virtual target = .ok j ∨ i.special target = .ok j := by
  obtain ⟨target, h⟩ | ⟨target, h⟩ | ⟨mode, target, h⟩ := h
  · exact ⟨target, Or.inl h⟩
  · exact ⟨target, Or.inr h⟩
  · exact ⟨target, retarget_eq_ok h⟩

/-- The method of a call stays, and it has a receiver. -/
theorem Retargets.method_eq (h : i.Retargets j) :
    j.method = i.method ∧ i.method.isStatic = false := by
  obtain ⟨target, h | h⟩ := h.cases
  · obtain ⟨hcheck, _, hcases⟩ := virtual_eq_ok_iff.mp h
    refine ⟨?_, (checkTarget_eq_ok_iff.mp hcheck).1⟩
    obtain ⟨_, _, rfl⟩ | ⟨_, _, rfl⟩ | ⟨_, rfl⟩ := hcases <;> rfl
  · obtain ⟨hcheck, rfl, _⟩ := special_eq_ok_iff.mp h
    exact ⟨rfl, (checkTarget_eq_ok_iff.mp hcheck).1⟩

/-- A call whose mode and target suit its method. -/
structure WellFormed (i : Invocation) : Prop where
  /-- The mode is one that calls can have. -/
  known : i.mode ∈ [.static, .special, .interface, .virtual]
  /-- Calls without a receiver are those of methods without one. -/
  static_iff : i.mode = .static ↔ i.method.isStatic = true
  /-- The target is a subtype of the owner. -/
  subtype : i.method.owner.isAssignableFrom i.target = true
  /-- Dispatch through an interface is on an interface. -/
  interface_target : i.mode = .interface → i.target.isInterface = true
  /-- Dispatch through a class is not. -/
  virtual_target : i.mode = .virtual → i.target.isInterface = false
  /-- Private methods and constructors with a receiver are called on their owner, and exactly they
  are called. -/
  bound : i.method.isStatic = false → (i.method.isPrivate || i.method.isConstructor) = true →
    i.mode = .special ∧ i.method.owner.same i.target = true
  /-- Of an abstract method there is nothing to call exactly. -/
  implemented : i.method.isAbstract = true →
    (i.method.isPrivate || i.method.isConstructor) = false → i.mode ≠ .special

/-- The call of exactly the target's method, if there is one that may be called so. -/
theorem wellFormed_special (hstatic : m.isStatic = false)
    (hsub : m.owner.isAssignableFrom target = true)
    (hcallable : (m.isPrivate || m.isConstructor) = true ∧ m.owner.same target = true ∨
      (m.isPrivate || m.isConstructor) = false ∧ m.isAbstract = false) :
    WellFormed ⟨m, target, .special⟩ := by
  obtain ⟨hbound, howner⟩ | ⟨hopen, habstract⟩ := hcallable
  · constructor <;> simp [hstatic, hsub, hbound, howner]
  · constructor <;> simp [hstatic, hsub, hopen, habstract]

/-- A call dispatched on the receiver, in the mode that its target asks for. -/
theorem wellFormed_dispatched (hstatic : m.isStatic = false)
    (hsub : m.owner.isAssignableFrom target = true)
    (hopen : (m.isPrivate || m.isConstructor) = false) :
    WellFormed ⟨m, target, if target.isInterface then .interface else .virtual⟩ := by
  split
  · next hinterface => constructor <;> simp [hstatic, hsub, hopen, hinterface]
  · next hclass => constructor <;> simp [hstatic, hsub, hopen, hclass]

/-- The call of a method on its owner has the mode that follows from the method. -/
theorem wellFormed_modeOf (m : Method) : WellFormed ⟨m, m.owner, modeOf m⟩ := by
  have hsame := m.owner.same_self
  have hsub := TypeDesc.isAssignableFrom_of_same hsame
  unfold modeOf
  split
  · next hstatic => constructor <;> simp [hstatic, hsub]
  · next hstatic =>
    rw [Bool.not_eq_true] at hstatic
    split
    · next hbound => exact wellFormed_special hstatic hsub (Or.inl ⟨hbound, hsame⟩)
    · next hopen => exact wellFormed_dispatched hstatic hsub (Bool.eq_false_iff.mpr hopen)

/-- A well-formed call that is aimed elsewhere stays well-formed. -/
theorem WellFormed.step (hi : i.WellFormed) (h : i.Retargets j) : j.WellFormed := by
  obtain ⟨target, h | h⟩ := h.cases
  · obtain ⟨hcheck, hopen, hcases⟩ := virtual_eq_ok_iff.mp h
    obtain ⟨hstatic, hsub⟩ := checkTarget_eq_ok_iff.mp hcheck
    have hdispatched := wellFormed_dispatched hstatic hsub hopen
    obtain ⟨_, _, rfl⟩ | ⟨hinterface, _, rfl⟩ | ⟨hclass, rfl⟩ := hcases
    · exact hi
    · rwa [if_pos hinterface] at hdispatched
    · rwa [if_neg (Bool.eq_false_iff.mp hclass)] at hdispatched
  · obtain ⟨hcheck, rfl, hcallable⟩ := special_eq_ok_iff.mp h
    obtain ⟨hstatic, hsub⟩ := checkTarget_eq_ok_iff.mp hcheck
    exact wellFormed_special hstatic hsub hcallable

/-- However often it is aimed elsewhere, a call stays well-formed and keeps its method. -/
theorem WellFormed.run (hi : i.WellFormed) (h : Relation.ReflTransGen Retargets i j) :
    j.WellFormed ∧ j.method = i.method := by
  induction h with
  | refl => exact ⟨hi, rfl⟩
  | tail _ hstep ih =>
    obtain ⟨hwell, hmethod⟩ := ih
    exact ⟨hwell.step hstep, hstep.method_eq.1.trans hmethod⟩

/-- A call is emitted as one instruction, wherever it stands. -/
theorem emitOnto_invoke (i : Invocation) (before : Array Step) :
    (Manipulation.atom (.invoke i)).emitOnto before =
      (before.push (.method i.mode.opcode i.target.name i.method.name i.method.descriptor
        i.target.isInterface), .ok (Atom.invoke i).effect) := by
  rw [Manipulation.emitOnto]
  rfl

/-- The mode of a well-formed call tells its opcode, and is told by it. -/
theorem WellFormed.opcode_mem (h : i.WellFormed) : (i.mode, i.mode.opcode) ∈
    [(.static, .invokestatic), (.special, .invokespecial), (.interface, .invokeinterface),
      (.virtual, .invokevirtual)] := by
  have hknown := h.known
  simp only [List.mem_cons, List.not_mem_nil, or_false] at hknown
  obtain hmode | hmode | hmode | hmode := hknown <;> simp [hmode, Mode.opcode]

/-- Every call that can be come by from a method is well-formed: its mode and target suit the
method. A static method is never aimed elsewhere. The call is one instruction, with the opcode of
its mode and its target for owner, and it takes and leaves what the first call of the method does.
-/
theorem reached_wellFormed {m : Method} {i j : Invocation} (hi : ofMethod m = .ok i)
    (hj : Relation.ReflTransGen Retargets i j) :
    j.method = m ∧ j.WellFormed ∧ (m.isStatic = true → ∀ k, ¬ j.Retargets k) ∧
      ∃ opcode effect,
        (j.mode, opcode) ∈ [(Mode.static, Opcode.invokestatic), (.special, .invokespecial),
          (.interface, .invokeinterface), (.virtual, .invokevirtual)] ∧
        (∀ before, (Manipulation.atom (.invoke j)).emitOnto before =
          (before.push (.method opcode j.target.name m.name m.descriptor j.target.isInterface),
            .ok effect)) ∧
        (Manipulation.atom (.invoke i)).emit.2 = .ok effect := by
  obtain ⟨_, rfl⟩ := ofMethod_eq_ok_iff.mp hi
  obtain ⟨hwell, hmethod⟩ := (wellFormed_modeOf m).run hj
  refine ⟨hmethod, hwell, ?_, j.mode.opcode, (Atom.invoke j).effect, hwell.opcode_mem, ?_, ?_⟩
  · intro hstatic k hk
    have hreceiver := hk.method_eq.2
    rw [hmethod, hstatic] at hreceiver
    cases hreceiver
  · intro before
    rw [emitOnto_invoke, hmethod]
  · rw [Manipulation.emit, emitOnto_invoke]
    simp only [Atom.effect, hmethod]

/-- The method of the root type that gives the hash code of an object. -/
def hashCode : Method := ⟨.object, "hashCode", .isPublic, .primitive .int, []⟩

theorem ofMethod_hashCode : ofMethod hashCode = .ok ⟨hashCode, .object, .virtual⟩ := by
  have hmode : modeOf hashCode = .virtual := by decide
  exact ofMethod_eq_ok_iff.mpr ⟨by decide, by rw [hmode]; rfl⟩

/-- Texts have a hash code of their own, which can be asked for exactly. -/
theorem special_hashCode (h : i.method = hashCode) :
    i.special .string = .ok ⟨hashCode, .string, .special⟩ := by
  have hcheck : i.checkTarget .string = .ok () :=
    checkTarget_eq_ok_iff.mpr ⟨by rw [h]; decide, by rw [h]; decide⟩
  refine special_eq_ok_iff.mpr ⟨hcheck, by rw [h], Or.inr ?_⟩
  rw [h]
  decide

/-- On an interface every call of the hash code stays as it is. -/
theorem virtual_hashCode (h : i.method = hashCode) : i.virtual .serializable = .ok i := by
  have hcheck : i.checkTarget .serializable = .ok () :=
    checkTarget_eq_ok_iff.mpr ⟨by rw [h]; decide, by rw [h]; decide⟩
  refine virtual_eq_ok_iff.mpr ⟨hcheck, by rw [h]; decide, Or.inl ⟨by decide, ?_, rfl⟩⟩
  rw [h]
  decide

/-- A method of the root type, called exactly as texts have it: aimed at an interface, the call
stays as it is. -/
theorem reached_wellFormed_rootMethod :
    let hashCode : Method := ⟨.object, "hashCode", .isPublic, .primitive .int, []⟩
    let i : Invocation := ⟨hashCode, .object, .virtual⟩
    let j : Invocation := ⟨hashCode, .string, .special⟩
    ofMethod hashCode = .ok i ∧ i.special .string = .ok j ∧ j.virtual .serializable = .ok j ∧
      j.WellFormed ∧
      (Manipulation.atom (.invoke j)).emit =
        (#[.method .invokespecial "java/lang/String" "hashCode" "()I" false], .ok ⟨0, 0⟩) := by
  intro hashCode i j
  have hi : ofMethod hashCode = .ok i := ofMethod_hashCode
  have hspecial : i.special .string = .ok j := special_hashCode rfl
  have hvirtual : j.virtual .serializable = .ok j := virtual_hashCode rfl
  have hfirst : i.Retargets j := Or.inr (Or.inl ⟨_, hspecial⟩)
  have hsecond : j.Retargets j := Or.inl ⟨_, hvirtual⟩
  obtain ⟨_, hwell, _, opcode, effect, hopcode, hemit, heffect⟩ :=
    reached_wellFormed hi ((Relation.ReflTransGen.single hfirst).tail hsecond)
  refine ⟨hi, hspecial, hvirtual, hwell, ?_⟩
  obtain rfl : opcode = .invokespecial := by simpa [j] using hopcode
  obtain rfl : (Atom.invoke i).effect = effect := by
    rw [Manipulation.emit, emitOnto_invoke] at heffect
    exact Except.ok.inj heffect
  have heff : (Atom.invoke i).effect = ⟨0, 0⟩ := by decide
  have hstep : Step.method .invokespecial j.target.name hashCode.name hashCode.descriptor
      j.target.isInterface = .method .invokespecial "java/lang/String" "hashCode" "()I" false := by
    decide
  rw [Manipulation.emit, hemit, heff, hstep]
  rfl

/-- The first call of a method is exact only for private methods and constructors. -/
theorem modeOf_ne_special (hopen : (m.isPrivate || m.isConstructor) = false) :
    modeOf m ≠ .special := by
  simp only [modeOf, hopen, Bool.false_eq_true, if_false]
  split
  · exact nofun
  · split <;> exact nofun

/-- Every method of the root type shows the exception: aimed at exactly some type's method it stays
so on an interface, where the first call of the method is dispatched. -/
theorem virtual_after_special {k : Invocation} {interface : TypeDesc} (hi : ofMethod m = .ok i)
    (hroot : m.owner.same .object = true) (hinterface : interface.isInterface = true)
    (hspecial : i.special target = .ok j) (hvirtual : i.virtual interface = .ok k) :
    j.virtual interface = .ok j ∧ j.mode = .special ∧ k.mode ≠ .special := by
  obtain ⟨_, rfl⟩ := ofMethod_eq_ok_iff.mp hi
  obtain ⟨_, rfl, _⟩ := special_eq_ok_iff.mp hspecial
  obtain ⟨hcheck, hopen, hcases⟩ := virtual_eq_ok_iff.mp hvirtual
  have hstays : (⟨m, target, .special⟩ : Invocation).virtual interface = .ok _ :=
    virtual_eq_ok_iff.mpr ⟨hcheck, hopen, Or.inl ⟨hinterface, hroot, rfl⟩⟩
  refine ⟨hstays, rfl, ?_⟩
  simp only [hinterface, hroot, true_and, Bool.true_eq_false, false_and, or_false] at hcases
  rw [hcases]
  exact modeOf_ne_special hopen

end OperandStack.Invocation
