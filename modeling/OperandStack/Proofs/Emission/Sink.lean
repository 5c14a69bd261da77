import OperandStack.Frame
import OperandStack.Proofs.Emission.Code

/-!
# Emission into any sink

A tree may be applied to whatever takes steps one at a time. However the sink keeps
them, it ends as if it had been given the emitted steps in order, and the tree reports
the same effect or the same error. Assembly applies a body to a sink that sizes the
frame and passes every step on, so the sink behind it sees the body alone.
-/

namespace OperandStack

variable {σ : Type}

/-- Gives the step of an atom, if there is one, to a sink. -/
def Atom.applyTo (put : σ → Step → σ) (s : σ) (a : Atom) : σ :=
  match a.step? with
  | some step => put s step
  | none => s

/-- An atom puts its steps behind those that a sink has taken already. -/
theorem Atom.applyTo_foldl (put : σ → Step → σ) (s : σ) (a : Atom) (before : Array Step) :
    a.applyTo put (before.foldl put s) = (a.emitOnto before).foldl put s := by
  unfold Atom.applyTo Atom.emitOnto
  cases a.step? with
  | none => rfl
  | some step => simp

namespace Manipulation

mutual

/-- Applies a piece to a sink: its steps go there one by one. -/
def applyTo (put : σ → Step → σ) (s : σ) : Manipulation → σ × Except Error StackEffect
  | trivial => (s, .ok .zero)
  | illegal => (s, .error illegalError)
  | atom a => (a.applyTo put s, .ok a.effect)
  | compound members => applyAllTo put s .zero members
  | arrayLiteral component elements =>
    let length := pushInt elements.length
    let create := Atom.createArray component
    applyElementsTo put component 0 (create.applyTo put (length.applyTo put s))
      (length.effect.followedBy create.effect) elements
  | custom more effect _ => (more.foldl put s, .ok effect)

/-- Applies pieces in order; `before` is the effect of those that came before. -/
def applyAllTo (put : σ → Step → σ) (s : σ) (before : StackEffect) :
    List Manipulation → σ × Except Error StackEffect
  | [] => (s, .ok before)
  | m :: rest =>
    match applyTo put s m with
    | (s, .ok effect) => applyAllTo put s (before.followedBy effect) rest
    | (s, .error e) => (s, .error e)

/-- Applies the elements of an array from an index on. -/
def applyElementsTo (put : σ → Step → σ) (component : Component) (index : Nat) (s : σ)
    (before : StackEffect) : List Manipulation → σ × Except Error StackEffect
  | [] => (s, .ok before)
  | m :: rest =>
    let copy := Atom.duplicate .single
    let place := pushInt index
    match applyTo put (place.applyTo put (copy.applyTo put s)) m with
    | (s, .ok effect) =>
      let store := Atom.storeElement component
      applyElementsTo put component (index + 1) (store.applyTo put s)
        ((((before.followedBy copy.effect).followedBy place.effect).followedBy effect).followedBy
          store.effect) rest
    | (s, .error e) => (s, .error e)

end

variable (put : σ → Step → σ) (s : σ)

-- Sinks and arrays of steps go on in parallel: a sink that has been given what was emitted before
-- ends with what has been emitted after.
mutual

/-- A tree applied to a sink puts what it emits, and reports the same. -/
theorem applyTo_foldl : (m : Manipulation) → (before : Array Step) →
    m.applyTo put (before.foldl put s) =
      ((m.emitOnto before).1.foldl put s, (m.emitOnto before).2)
  | trivial, _ => by rw [applyTo, emitOnto]
  | illegal, _ => by rw [applyTo, emitOnto]
  | atom a, before => by rw [applyTo, emitOnto, a.applyTo_foldl]
  | compound members, before => by rw [applyTo, emitOnto, applyAllTo_foldl members]
  | arrayLiteral component elements, before => by
    simp only [applyTo, emitOnto, Atom.applyTo_foldl]
    exact applyElementsTo_foldl elements component 0 _ _
  | custom more effect _, before => by
    simp only [applyTo, emitOnto, ← Array.foldl_toList, Array.toList_appendList, List.foldl_append]

/-- Members are applied one after another, up to the first that fails. -/
theorem applyAllTo_foldl : (ms : List Manipulation) → (before : Array Step) →
    (done : StackEffect) → applyAllTo put (before.foldl put s) done ms =
      ((emitAllOnto before done ms).1.foldl put s, (emitAllOnto before done ms).2)
  | [], before, done => by rw [applyAllTo, emitAllOnto]
  | m :: rest, before, done => by
    rw [applyAllTo, emitAllOnto, applyTo_foldl m before]
    cases m.emitOnto before with
    | mk steps result =>
      cases result with
      | error e => rfl
      | ok effect => exact applyAllTo_foldl rest steps _

/-- Elements are applied with the steps that store them, up to the first that fails. -/
theorem applyElementsTo_foldl : (ms : List Manipulation) → (component : Component) →
    (index : Nat) → (before : Array Step) → (done : StackEffect) →
    applyElementsTo put component index (before.foldl put s) done ms =
      ((emitElementsOnto component index before done ms).1.foldl put s,
        (emitElementsOnto component index before done ms).2)
  | [], component, index, before, done => by rw [applyElementsTo, emitElementsOnto]
  | m :: rest, component, index, before, done => by
    simp only [applyElementsTo, emitElementsOnto, Atom.applyTo_foldl, applyTo_foldl m]
    cases m.emitOnto _ with
    | mk steps result =>
      cases result with
      | error e => rfl
      | ok effect =>
        simp only [Atom.applyTo_foldl]
        exact applyElementsTo_foldl rest component (index + 1) _ _

end

/-- A sink ends as if it had been given the emitted steps in order. -/
theorem applyTo_eq (m : Manipulation) :
    m.applyTo put s = (m.emit.1.foldl put s, m.emit.2) :=
  applyTo_foldl put s m #[]

end Manipulation

/-- A sink that sizes a frame and passes every step on to another sink. -/
structure FrameTracker (σ : Type) where
  sink : σ
  /-- The slots of the local variables so far. -/
  maxLocals : Int64
  /-- The number of instructions so far. -/
  instructions : Nat

namespace FrameTracker

/-- Takes note of a step and passes it on. -/
def put (put : σ → Step → σ) (t : FrameTracker σ) (s : Step) : FrameTracker σ :=
  ⟨put t.sink s, touchLocal t.maxLocals s, t.instructions + 1⟩

/-- The sink behind a tracker sees the steps alone, and the tracker does not depend on the sink. -/
theorem foldl_put (put : σ → Step → σ) (t : FrameTracker σ) (steps : Array Step) :
    steps.foldl (FrameTracker.put put) t =
      ⟨steps.foldl put t.sink, steps.foldl touchLocal t.maxLocals,
        t.instructions + steps.size⟩ := by
  simp only [← Array.foldl_toList]
  rw [← Array.length_toList]
  generalize steps.toList = code
  induction code generalizing t with
  | nil => rfl
  | cons s code ih =>
    rw [List.foldl_cons, ih]
    simp only [FrameTracker.put, List.foldl_cons, List.length_cons, Nat.add_comm code.length 1,
      Nat.add_assoc]

end FrameTracker

/-- Assembles a body into a sink, through a tracker. What comes out of the application of the body
as an error is not reported but raised. -/
def assembleInto (put : σ → Step → σ) (s : σ) (limits : Limits) (m : Method) (body : Manipulation) :
    σ × Except Error (FrameSize × Option Error) :=
  if body.isValid then
    match body.applyTo (FrameTracker.put put) ⟨s, Int64.ofNat m.slots, 0⟩ with
    | (t, .ok effect) =>
      let frame : FrameSize := ⟨effect, effect.peak, t.maxLocals, t.instructions⟩
      (t.sink, .ok (frame, frame.excess? limits m))
    | (t, .error e) => (t.sink, .error e)
  else (s, .ok (.zero, some (invalidBody m)))

/-- Assembly never raises an error: the sink is given what is emitted for the body, and the frame
and the error that refuses it are reported. -/
theorem assembleInto_eq (put : σ → Step → σ) (s : σ) (limits : Limits) (m : Method)
    (body : Manipulation) :
    assembleInto put s limits m body =
      ((emitBody limits m body).steps.foldl put s,
        .ok ((emitBody limits m body).frame, (emitBody limits m body).failure?)) := by
  unfold assembleInto emitBody
  cases hvalid : body.isValid with
  | false => rfl
  | true =>
    rw [Manipulation.applyTo_eq, Manipulation.emit_eq hvalid]
    simp only [if_true, FrameTracker.foldl_put, maxLocalsOf, Nat.zero_add]

end OperandStack
