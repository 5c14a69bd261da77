import OperandStack.Manipulation.Basic

/-!
# Assignment of one type to another

The conversions that make a value of one type fit a variable of another: widening
of primitive values, boxing, unboxing and checked casts. Casts, and defaults where
there is no value, are used only if the assignment is dynamic.
-/

namespace OperandStack.Manipulation

/-- The widening of one primitive sort to another. Nothing widens to or from booleans, or to
chars. -/
def widenPrimitive : (source target : Primitive) → Manipulation
  | .boolean, .boolean => trivial
  | .byte, .byte => trivial
  | .byte, .short => trivial
  | .byte, .int => trivial
  | .short, .short => trivial
  | .short, .int => trivial
  | .char, .char => trivial
  | .char, .int => trivial
  | .int, .int => trivial
  | .byte, .long => atom (.convert .intToLong)
  | .short, .long => atom (.convert .intToLong)
  | .char, .long => atom (.convert .intToLong)
  | .int, .long => atom (.convert .intToLong)
  | .byte, .float => atom (.convert .intToFloat)
  | .short, .float => atom (.convert .intToFloat)
  | .char, .float => atom (.convert .intToFloat)
  | .int, .float => atom (.convert .intToFloat)
  | .byte, .double => atom (.convert .intToDouble)
  | .short, .double => atom (.convert .intToDouble)
  | .char, .double => atom (.convert .intToDouble)
  | .int, .double => atom (.convert .intToDouble)
  | .long, .long => trivial
  | .long, .float => atom (.convert .longToFloat)
  | .long, .double => atom (.convert .longToDouble)
  | .float, .float => trivial
  | .float, .double => atom (.convert .floatToDouble)
  | .double, .double => trivial
  | _, _ => illegal

/-- The widening of one kind to another; only primitive kinds widen. -/
def widen (source target : Kind) : Manipulation :=
  match source, target with
  | .primitive p, .primitive q => widenPrimitive p q
  | _, _ => illegal

/-- Puts a primitive value into its wrapper. -/
def box (k : Kind) : Manipulation :=
  match k with
  | .primitive p => atom (.box p)
  | _ => illegal

/-- Takes a primitive value out of its wrapper. -/
def unbox (k : Kind) : Manipulation :=
  match k with
  | .primitive p => atom (.unbox p)
  | _ => illegal

/-- Checks that a reference is of a type. -/
def cast (t : TypeDesc) : Manipulation :=
  if t.isReference then atom (.cast t) else illegal

/-- The assignment of one reference type to another. -/
def assignReference (source target : TypeDesc) (dynamic : Bool) : Manipulation :=
  if target.isAssignableFrom source then trivial
  else if dynamic then cast target
  else illegal

/-- The assignment of a reference to a primitive sort. -/
def assignUnboxed (source : TypeDesc) (target : Primitive) (dynamic : Bool) : Manipulation :=
  match source.unwrap? with
  | some p => compose [atom (.unbox p), widenPrimitive p target]
  | none =>
    if dynamic then compose [cast (.wrapper target), atom (.unbox target)] else illegal

/-- The assignment of a value of one type to a variable of another. -/
def assign (source target : TypeDesc) (dynamic : Bool) : Manipulation :=
  match source.kind, target.kind with
  | .void, .void => trivial
  | .void, _ => if dynamic then pushDefault target else illegal
  | _, .void => atom (.discard source.size)
  | .primitive p, .primitive q => widenPrimitive p q
  | .primitive p, _ => compose [atom (.box p), assignReference (.wrapper p) target dynamic]
  | _, .primitive q => assignUnboxed source q dynamic
  | _, _ => assignReference source target dynamic

end OperandStack.Manipulation
