import OperandStack.Manipulation.Access
import OperandStack.Manipulation.Assign

/-!
# Ready-made bodies

The bodies that a method can be given: its default result, a fixed value, a throw,
a call of the super class, a call of another method, the access of a field, and an
array of its arguments.
-/

namespace OperandStack

/-- A way to implement a method. -/
inductive Implementation where
  /-- Returns the zero of the return type. -/
  | stub
  /-- Returns a value of a type. -/
  | fixed (value : Manipulation) (type : TypeDesc)
  /-- Throws a new exception, with a message unless it is empty. -/
  | throwing (exception : TypeDesc) (message : String)
  /-- Calls the method of the super class. -/
  | superCall
  /-- Calls another method with the arguments. -/
  | delegate (target : Method) (dynamic : Bool)
  /-- Returns the value of a field. -/
  | getter (field : Field)
  /-- Stores the argument into a field. -/
  | setter (field : Field)
  /-- Returns the arguments as an array. -/
  | argumentArray
  /-- A body that is given as it is. -/
  | given (body : Manipulation)

namespace Implementation

open Manipulation
open Invocation (fault typeFault)

/-- A value that cannot be assigned where a method needs it. -/
def notAssignable (m : Method) (source target : TypeDesc) : Error :=
  typeFault m source ("cannot assign " ++ source.text ++ " to " ++ target.text)

/-- The assignment of one type to another that a method needs. -/
def assigning (m : Method) (source target : TypeDesc) (dynamic : Bool) :
    Except Error Manipulation :=
  let conversion := assign source target dynamic
  if conversion.isValid then .ok conversion else .error (notAssignable m source target)

/-- Returns the value of a type on top of the stack. -/
def returning (m : Method) (t : TypeDesc) (dynamic : Bool) : Except Error Manipulation := do
  let conversion ← assigning m t m.returns dynamic
  return compose [conversion, giveBack m.returns]

/-- Pushes the receiver for the access of a field. -/
def fieldReceiver (m : Method) (f : Field) : Except Error Manipulation :=
  if f.isStatic then .ok trivial
  else if m.isStatic || !f.owner.isAssignableFrom m.owner then
    .error (fault m .illegalState
      ("instance field " ++ f.text ++ " is not accessible from " ++ m.text))
  else .ok loadThis

/-- Throws a new exception. -/
def throwingBody (m : Method) (exception : TypeDesc) (message : String) :
    Except Error Manipulation := do
  if !TypeDesc.throwable.isAssignableFrom exception then
    .error (typeFault m exception "not a throwable type")
  else
    let (parameters, arguments) :=
      if message = "" then ([], trivial) else ([TypeDesc.string], push (.text message))
    let call ← Invocation.ofMethod (.ofConstructor exception .isPublic parameters)
    return compose [create exception, atom (.duplicate .single), arguments, atom (.invoke call),
      atom .throwTop]

/-- Calls the method of the super class. -/
def superBody (m : Method) : Except Error Manipulation :=
  if m.isStatic then .error (fault m .illegalState "static methods have no super call")
  else if m.isPrivate then .error (fault m .illegalState "private methods have no super call")
  else match m.owner.superClass? with
    | none => .error (fault m .illegalState "declaring type has no super class")
    | some superClass => do
      let target : Method :=
        { m with owner := superClass, modifiers := m.modifiers.without .isAbstract }
      let invocation ← Invocation.ofMethod target
      let call ← invocation.special superClass
      return compose [loadArguments m, atom (.invoke call), giveBack m.returns]

/-- Pushes the parameters of a method from an index on, each assigned to the parameter of the
target at the same place. -/
def passArguments (m : Method) (dynamic : Bool) (i : Nat) :
    (sources targets : List TypeDesc) → Except Error (List Manipulation)
  | source :: sources, target :: targets => do
    let value ← loadParameter m (Int64.ofNat i)
    let conversion ← assigning m source target dynamic
    return value :: conversion :: (← passArguments m dynamic (i + 1) sources targets)
  | _, _ => return []

/-- Calls another method with the receiver, if it takes one, and the arguments. -/
def delegateBody (m target : Method) (dynamic : Bool) : Except Error Manipulation := do
  if m.parameters.length ≠ target.parameters.length then
    .error (fault m .illegalArgument (target.text ++ " takes " ++
      toString target.parameters.length ++ " arguments, got " ++ toString m.parameters.length))
  else
    let call ← Invocation.ofMethod target
    let receiver ←
      if target.isStatic then pure []
      else if m.isStatic then
        .error (fault m .illegalState
          ("static method cannot delegate to instance method " ++ target.text))
      else pure [loadThis, assign m.owner target.owner dynamic]
    let arguments ← passArguments m dynamic 0 m.parameters target.parameters
    let result ← returning m target.returns dynamic
    let body := compose (receiver ++ arguments ++ [atom (.invoke call), result])
    if body.isValid then return body else .error (notAssignable m m.owner target.owner)

/-- Returns the value of a field. -/
def getterBody (m : Method) (f : Field) : Except Error Manipulation := do
  let receiver ← fieldReceiver m f
  let result ← returning m f.type false
  return compose [receiver, atom (.readField f), result]

/-- Stores the only argument into a field. -/
def setterBody (m : Method) (f : Field) : Except Error Manipulation :=
  match m.parameters with
  | [parameter] => do
    let receiver ← fieldReceiver m f
    let value ← loadParameter m 0
    let conversion ← assigning m parameter f.type false
    return compose [receiver, value, conversion, atom (.writeField f), pushDefault m.returns,
      giveBack m.returns]
  | _ => .error (fault m .illegalArgument "setter takes exactly one argument")

/-- Pushes the parameters of a method from an index on, each assigned to the root type. -/
def boxedArguments (m : Method) (i : Nat) : List TypeDesc → Except Error (List Manipulation)
  | [] => return []
  | t :: rest => do
    let value ← loadParameter m (Int64.ofNat i)
    return compose [value, assign t .object false] :: (← boxedArguments m (i + 1) rest)

/-- Returns the arguments as an array of the root type. -/
def argumentArrayBody (m : Method) : Except Error Manipulation := do
  let component ← component .object
  let values ← boxedArguments m 0 m.parameters
  let result ← returning m (.array .object) false
  return compose [arrayLiteral component values, result]

/-- The body of a method. -/
def body : Implementation → Method → Except Error Manipulation
  | stub, m => .ok (compose [pushDefault m.returns, giveBack m.returns])
  | fixed value type, m => do
    let result ← returning m type false
    return compose [value, result]
  | throwing exception message, m => throwingBody m exception message
  | superCall, m => superBody m
  | delegate target dynamic, m => delegateBody m target dynamic
  | getter f, m => getterBody m f
  | setter f, m => setterBody m f
  | argumentArray, m => argumentArrayBody m
  | given body, _ => .ok body

end Implementation

end OperandStack
