import OperandStack.Type.Basic

/-!
# Built-in types

The well-known reference types, and the wrapper class of each primitive sort.
-/

namespace OperandStack.TypeDesc

/-- The root of all reference types; it alone has no super class by nature. -/
def object : TypeDesc := declared "java/lang/Object" .isPublic none []

/-- An interface. Its super class is the root type. -/
def ofInterface (name : String) (modifiers : Modifiers) (interfaces : List TypeDesc) : TypeDesc :=
  declared name (.unionAll [modifiers, .isInterface, .isAbstract]) (some object) interfaces

/-- The type of values that may be copied. -/
def cloneable : TypeDesc := ofInterface "java/lang/Cloneable" .isPublic []

/-- The type of values that may be stored. -/
def serializable : TypeDesc := ofInterface "java/io/Serializable" .isPublic []

/-- A final public class. -/
private def finalClass (name : String) (superClass : TypeDesc) (interfaces : List TypeDesc) :
    TypeDesc :=
  ofClass name (.unionAll [.isPublic, .isFinal]) (some superClass) interfaces

/-- The type of texts. -/
def string : TypeDesc := finalClass "java/lang/String" object [serializable]

/-- The super class of the numeric wrappers. -/
def number : TypeDesc :=
  ofClass "java/lang/Number" (.unionAll [.isPublic, .isAbstract]) (some object) [serializable]

/-- The root of all types that can be thrown. -/
def throwable : TypeDesc := ofClass "java/lang/Throwable" .isPublic (some object) [serializable]

/-- The type of class literals. -/
def classType : TypeDesc := finalClass "java/lang/Class" object [serializable]

/-- The wrapper class of a primitive sort. -/
def wrapper : Primitive → TypeDesc
  | .boolean => finalClass "java/lang/Boolean" object [serializable]
  | .byte => finalClass "java/lang/Byte" number []
  | .short => finalClass "java/lang/Short" number []
  | .char => finalClass "java/lang/Character" object [serializable]
  | .int => finalClass "java/lang/Integer" number []
  | .long => finalClass "java/lang/Long" number []
  | .float => finalClass "java/lang/Float" number []
  | .double => finalClass "java/lang/Double" number []

/-- The primitive sort that a type wraps. -/
def unwrap? (t : TypeDesc) : Option Primitive :=
  Primitive.all.find? fun p => (wrapper p).same t

/-- All built-in reference types. -/
def builtins : List TypeDesc :=
  [object, string, classType, number, throwable, cloneable, serializable] ++
    Primitive.all.map wrapper

/-- The super class of a type. Arrays extend the root type. -/
def superClass? : TypeDesc → Option TypeDesc
  | declared _ _ superClass _ => superClass
  | array _ => some object
  | _ => none

/-- The interfaces of a type. Arrays may be copied and stored. -/
def interfaces : TypeDesc → List TypeDesc
  | declared _ _ _ interfaces => interfaces
  | array _ => [cloneable, serializable]
  | _ => []

/-- The type with no values or with the values of a primitive sort. -/
def ofKind? : Kind → Option TypeDesc
  | .void => some void
  | .primitive p => some (primitive p)
  | _ => none

end OperandStack.TypeDesc
