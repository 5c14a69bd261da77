import OperandStack.Kind
import OperandStack.Modifiers

/-!
# Type descriptions

A type is `void`, primitive, declared under a name, or an array of components. A
declared type carries the super class and the interfaces it was declared with.
Two descriptions denote the same type exactly if kind and name agree.
-/

namespace OperandStack

/-- A description of a type. -/
inductive TypeDesc where
  | void
  | primitive (p : Primitive)
  | declared (name : String) (modifiers : Modifiers) (superClass : Option TypeDesc)
      (interfaces : List TypeDesc)
  | array (component : TypeDesc)

instance : Inhabited TypeDesc := ⟨.void⟩

namespace TypeDesc

/-- The kind of the values of a type. -/
def kind : TypeDesc → Kind
  | void => .void
  | primitive p => .primitive p
  | declared .. => .reference
  | array _ => .reference

/-- The field descriptor of a type. -/
def descriptor : TypeDesc → String
  | void => "V"
  | primitive p => p.letter.toString
  | declared name .. => "L" ++ name ++ ";"
  | array component => "[" ++ component.descriptor

@[simp] theorem toList_descriptor_void : void.descriptor.toList = ['V'] := rfl

@[simp] theorem toList_descriptor_primitive (p : Primitive) :
    (primitive p).descriptor.toList = [p.letter] := by
  simp [descriptor]

@[simp] theorem toList_descriptor_declared (name : String) (modifiers : Modifiers)
    (superClass : Option TypeDesc) (interfaces : List TypeDesc) :
    (declared name modifiers superClass interfaces).descriptor.toList =
      'L' :: (name.toList ++ [';']) := by
  simp [descriptor]

@[simp] theorem toList_descriptor_array (component : TypeDesc) :
    (array component).descriptor.toList = '[' :: component.descriptor.toList := by
  simp [descriptor]

/-- No descriptor starts with the closing parenthesis. -/
theorem head?_descriptor_ne (t : TypeDesc) (rest : List Char) :
    (t.descriptor.toList ++ rest).head? ≠ some ')' := by
  cases t with
  | primitive p => cases p <;> simp [Primitive.letter]
  | _ => simp

/-- The keyword of a primitive type, the internal name of a class, the descriptor of an array. -/
def name : TypeDesc → String
  | void => "void"
  | primitive p => p.keyword
  | declared name .. => name
  | array component => "[" ++ component.descriptor

/-- The spelling of a type with dots between packages and brackets after array components. -/
def text : TypeDesc → String
  | void => "void"
  | primitive p => p.keyword
  | declared name .. => name.map fun c => if c = '/' then '.' else c
  | array component => component.text ++ "[]"

/-- The access flags of a type. All but declared types are public, final and abstract. -/
def modifiers : TypeDesc → Modifiers
  | declared _ modifiers .. => modifiers
  | _ => .unionAll [.isPublic, .isFinal, .isAbstract]

/-- The primitive sort of a type. -/
def primitive? (t : TypeDesc) : Option Primitive := t.kind.primitive?

/-- Whether a type is primitive. -/
def isPrimitive (t : TypeDesc) : Bool := t.kind.isPrimitive

/-- Whether a type is `void`. -/
def isVoid (t : TypeDesc) : Bool := t.kind = .void

/-- Whether the values of a type are references. -/
def isReference (t : TypeDesc) : Bool := t.kind = .reference

/-- Whether a type is an array. -/
def isArray : TypeDesc → Bool
  | array _ => true
  | _ => false

/-- The component type of an array. -/
def component? : TypeDesc → Option TypeDesc
  | array component => some component
  | _ => none

/-- Whether a type is an interface. -/
def isInterface (t : TypeDesc) : Bool := t.modifiers.has .isInterface

/-- Whether a type is abstract. -/
def isAbstract (t : TypeDesc) : Bool := t.modifiers.has .isAbstract

/-- The slots of a value of a type. -/
def size (t : TypeDesc) : ValueSize := t.kind.size

/-- Whether two descriptions denote the same type. -/
def same (t u : TypeDesc) : Bool := t.kind = u.kind && t.name = u.name

/-- Whether a type is the reference type with an internal name. -/
def represents (t : TypeDesc) (name : String) : Bool := t.isReference && t.name = name

/-- A class. It is never flagged as an interface. -/
def ofClass (name : String) (modifiers : Modifiers) (superClass : Option TypeDesc)
    (interfaces : List TypeDesc) : TypeDesc :=
  declared name (modifiers.without .isInterface) superClass interfaces

end TypeDesc

end OperandStack
