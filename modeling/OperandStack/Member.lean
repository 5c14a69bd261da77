import OperandStack.Number.Operations
import OperandStack.Type.Assignable

/-!
# Members

Fields and methods of a type. The parameters of a method take consecutive slots
of the local variables, after the receiver if there is one.
-/

namespace OperandStack

/-- A field of a type. -/
structure Field where
  /-- The type that declares the field. -/
  owner : TypeDesc
  name : String
  modifiers : Modifiers
  /-- The type of its values. -/
  type : TypeDesc

namespace Field

/-- Whether a field belongs to the type and not to its instances. -/
def isStatic (f : Field) : Bool := f.modifiers.has .isStatic

/-- Whether a field is written once only. -/
def isFinal (f : Field) : Bool := f.modifiers.has .isFinal

/-- The descriptor of the values. -/
def descriptor (f : Field) : String := f.type.descriptor

/-- The owner, name and descriptor of a field. -/
def text (f : Field) : String := f.owner.name ++ "." ++ f.name ++ ":" ++ f.descriptor

/-- The slots taken by the receiver of an access. -/
def receiverSlots (f : Field) : Nat := if f.isStatic then 0 else 1

end Field

/-- A method, constructor or type initializer. -/
structure Method where
  /-- The type that declares the method. -/
  owner : TypeDesc
  name : String
  modifiers : Modifiers
  returns : TypeDesc
  parameters : List TypeDesc

namespace Method

/-- The name of every constructor. -/
def constructorName : String := "<init>"

/-- The name of every type initializer. -/
def initializerName : String := "<clinit>"

/-- A constructor. It is never static. -/
def ofConstructor (owner : TypeDesc) (modifiers : Modifiers) (parameters : List TypeDesc) :
    Method :=
  ⟨owner, constructorName, modifiers.without .isStatic, .void, parameters⟩

/-- Whether a method has no receiver. -/
def isStatic (m : Method) : Bool := m.modifiers.has .isStatic

/-- Whether a method is visible to its owner only. -/
def isPrivate (m : Method) : Bool := m.modifiers.has .isPrivate

/-- Whether a method has no implementation. -/
def isAbstract (m : Method) : Bool := m.modifiers.has .isAbstract

/-- Whether a method is a constructor. -/
def isConstructor (m : Method) : Bool := m.name = constructorName

/-- Whether a method initializes its type. -/
def isInitializer (m : Method) : Bool := m.name = initializerName

/-- The method descriptor. -/
def descriptor (m : Method) : String :=
  "(" ++ String.join (m.parameters.map TypeDesc.descriptor) ++ ")" ++ m.returns.descriptor

/-- The characters of a method descriptor. -/
theorem toList_descriptorText (parameters : List TypeDesc) (returns : TypeDesc) :
    ("(" ++ String.join (parameters.map TypeDesc.descriptor) ++ ")" ++
        returns.descriptor).toList =
      '(' :: ((parameters.flatMap fun t => t.descriptor.toList) ++
        ')' :: returns.descriptor.toList) := by
  simp [List.flatMap_map]

/-- The owner, name and descriptor of a method. -/
def text (m : Method) : String := m.owner.name ++ "." ++ m.name ++ m.descriptor

/-- The slots of a list of values. -/
def slotsOf (types : List TypeDesc) : Nat := (types.map fun t => t.size.slots.toNat).sum

/-- The slots of the parameters. -/
def parameterSlots (m : Method) : Nat := slotsOf m.parameters

/-- The slot of the first parameter. -/
def firstSlot (m : Method) : Nat := if m.isStatic then 0 else 1

/-- The slots of the parameters and of the receiver, if there is one. -/
def slots (m : Method) : Nat := m.firstSlot + m.parameterSlots

/-- The slot of a parameter, also of the one after the last. -/
def parameterSlot? (m : Method) (i : Nat) : Option Nat :=
  if i ≤ m.parameters.length then some (m.firstSlot + slotsOf (m.parameters.take i)) else none

end Method

end OperandStack
