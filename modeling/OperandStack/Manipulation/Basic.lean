import OperandStack.Manipulation.Atom

/-!
# Manipulations

A manipulation is a piece of a body with an effect on the operand stack that is
known before anything is emitted. Manipulations form trees. One that cannot be
emitted is illegal, and a tree with an illegal part is not valid; emission of such
a tree stops at the first illegal part and keeps what came before.
-/

namespace OperandStack

/-- A piece of a body. -/
inductive Manipulation where
  /-- Emits nothing. -/
  | trivial
  /-- Cannot be emitted. -/
  | illegal
  | atom (a : Atom)
  /-- One piece after another. -/
  | compound (members : List Manipulation)
  /-- Pushes a new array of the values that its elements push. -/
  | arrayLiteral (component : Component) (elements : List Manipulation)
  /-- Steps with an effect that is taken on trust, as is their validity. -/
  | custom (steps : List Step) (effect : StackEffect) (valid : Bool)

instance : Inhabited Manipulation := ⟨.trivial⟩

namespace Manipulation

/-- Pieces put one after another. The members of compounds are taken over one by one. -/
def compose (ms : List Manipulation) : Manipulation :=
  compound (ms.flatMap fun
    | compound members => members
    | m => [m])

mutual

/-- Whether every part can be emitted. -/
def isValid : Manipulation → Bool
  | trivial => true
  | illegal => false
  | atom _ => true
  | compound members => allValid members
  | arrayLiteral _ elements => allValid elements
  | custom _ _ valid => valid

/-- Whether every one of several pieces can be emitted. -/
def allValid : List Manipulation → Bool
  | [] => true
  | m :: rest => m.isValid && allValid rest

end

/-- The error of emitting an illegal piece. -/
def illegalError : Error :=
  .of .assemble .illegalState "an illegal stack manipulation must not be applied"

/-- What has been emitted, and the effect of the last piece or the error that ended it. -/
abbrev Emission := Array Step × Except Error StackEffect

/-- The atom that pushes an int. -/
def pushInt (n : Nat) : Atom := .push (.int (Int32.ofNat n))

mutual

/-- Emits a piece behind what has been emitted before. -/
def emitOnto (steps : Array Step) : Manipulation → Emission
  | trivial => (steps, .ok .zero)
  | illegal => (steps, .error illegalError)
  | atom a => (a.emitOnto steps, .ok a.effect)
  | compound members => emitAllOnto steps .zero members
  | arrayLiteral component elements =>
    let length := pushInt elements.length
    let create := Atom.createArray component
    emitElementsOnto component 0 (create.emitOnto (length.emitOnto steps))
      (length.effect.followedBy create.effect) elements
  | custom more effect _ => (steps ++ more, .ok effect)

/-- Emits pieces in order; `before` is the effect of those that came before. -/
def emitAllOnto (steps : Array Step) (before : StackEffect) : List Manipulation → Emission
  | [] => (steps, .ok before)
  | m :: rest =>
    match emitOnto steps m with
    | (steps, .ok effect) => emitAllOnto steps (before.followedBy effect) rest
    | (steps, .error e) => (steps, .error e)

/-- Emits the elements of an array from an index on. Each is stored into a copy of the array. -/
def emitElementsOnto (component : Component) (index : Nat) (steps : Array Step)
    (before : StackEffect) : List Manipulation → Emission
  | [] => (steps, .ok before)
  | m :: rest =>
    let copy := Atom.duplicate .single
    let place := pushInt index
    match emitOnto (place.emitOnto (copy.emitOnto steps)) m with
    | (steps, .ok effect) =>
      let store := Atom.storeElement component
      emitElementsOnto component (index + 1) (store.emitOnto steps)
        ((((before.followedBy copy.effect).followedBy place.effect).followedBy effect).followedBy
          store.effect) rest
    | (steps, .error e) => (steps, .error e)

end

/-- Emits a piece. -/
def emit (m : Manipulation) : Emission := m.emitOnto #[]

/-- The number of members of a compound. -/
def memberCount? : Manipulation → Option Nat
  | compound members => some members.length
  | _ => none

/-- The name of a piece, where it has one. -/
def label? : Manipulation → Option String
  | trivial => some "trivial"
  | illegal => some "illegal"
  | atom a => a.label?
  | _ => none

/-- Pushes a literal. -/
def push (l : Literal) : Manipulation := atom (.push l)

/-- Copies the top value to below the value under it. Without a value there is nothing to copy, and
without a value under it the copy stays on top. -/
def duplicateUnder (size under : ValueSize) : Manipulation :=
  if size = .zero then trivial
  else if under = .zero then atom (.duplicate size)
  else atom (.duplicateUnder size under)

/-- Pushes the zero of a type, nothing for `void`. -/
def pushDefault (t : TypeDesc) : Manipulation :=
  match Literal.default? t.kind with
  | some l => push l
  | none => trivial

end Manipulation

end OperandStack
