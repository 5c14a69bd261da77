import OperandStack.Code.Opcode
import OperandStack.Error
import OperandStack.Member

/-!
# Invocations

An invocation calls a method on a target type in some mode. The mode follows from
the method; a method with a receiver may be aimed at a subtype of its owner.
-/

namespace OperandStack

/-- The way a method is called. -/
inductive Mode where
  | static
  | special
  | interface
  | virtual
  /-- A code that no mode has. -/
  | unassigned (code : UInt8)
  deriving DecidableEq, Repr

namespace Mode

/-- The mode with a code. -/
def ofCode (code : UInt8) : Mode :=
  match code.toNat with
  | 0 => static
  | 1 => special
  | 2 => interface
  | 3 => virtual
  | _ => unassigned code

/-- The code of a mode. -/
def code : Mode → UInt8
  | static => 0
  | special => 1
  | interface => 2
  | virtual => 3
  | unassigned code => code

/-- The name of a mode. -/
def name : Mode → String
  | static => "static"
  | special => "special"
  | interface => "interface"
  | virtual => "virtual"
  | unassigned code => "mode(" ++ toString code.toNat ++ ")"

/-- The mode with a name. -/
def ofName? : String → Option Mode
  | "static" => some static
  | "special" => some special
  | "interface" => some interface
  | "virtual" => some virtual
  | _ => none

/-- The opcode that calls in a mode. -/
def opcode : Mode → Opcode
  | static => .invokestatic
  | special => .invokespecial
  | interface => .invokeinterface
  | _ => .invokevirtual

end Mode

/-- A call of a method on a target type. -/
structure Invocation where
  method : Method
  /-- The type that the call names as the owner. -/
  target : TypeDesc
  mode : Mode

namespace Invocation

/-- An assembly error about a method. -/
def fault (m : Method) (kind : ErrorKind) (detail : String) : Error :=
  .report { phase := some .assemble, kind, member := m.text, detail }

/-- An assembly error about an argument of a type in connection with a method. -/
def typeFault (m : Method) (t : TypeDesc) (detail : String) : Error :=
  .report {
    phase := some .assemble
    kind := .illegalArgument
    member := m.text
    type := t.text
    detail }

/-- The mode that follows from a method. -/
def modeOf (m : Method) : Mode :=
  if m.isStatic then .static
  else if m.isPrivate || m.isConstructor then .special
  else if m.owner.isInterface then .interface
  else .virtual

/-- The call of a method on its owner. Type initializers cannot be called. -/
def ofMethod (m : Method) : Except Error Invocation :=
  if m.isInitializer then .error (fault m .illegalArgument "cannot invoke a type initializer")
  else .ok ⟨m, m.owner, modeOf m⟩

/-- The mode, target, name and descriptor of a call. -/
def text (i : Invocation) : String :=
  i.mode.name ++ " " ++ i.target.name ++ "." ++ i.method.name ++ i.method.descriptor

/-- Refuses a target for a method without receiver, and one that is no subtype of the owner. -/
def checkTarget (i : Invocation) (target : TypeDesc) : Except Error Unit :=
  if i.method.isStatic then
    .error (fault i.method .illegalState "cannot retarget a static method")
  else if i.method.owner.isAssignableFrom target then .ok ()
  else .error (typeFault i.method target ("receiver is not a subtype of " ++ i.method.owner.text))

/-- The call dispatched on the receiver. Methods of the root type are called on an interface as
they were called before. -/
def virtual (i : Invocation) (target : TypeDesc) : Except Error Invocation := do
  i.checkTarget target
  if i.method.isPrivate || i.method.isConstructor then
    .error (fault i.method .illegalArgument
      "private methods and constructors cannot be invoked virtually")
  else if target.isInterface then
    if i.method.owner.same .object then return i
    else return ⟨i.method, target, .interface⟩
  else return ⟨i.method, target, .virtual⟩

/-- The call of exactly the target's method. -/
def special (i : Invocation) (target : TypeDesc) : Except Error Invocation := do
  i.checkTarget target
  if i.method.isPrivate || i.method.isConstructor then
    if i.method.owner.same target then return ⟨i.method, target, .special⟩
    else .error (typeFault i.method target
      "private methods and constructors can only be invoked on their declaring type")
  else if i.method.isAbstract then
    .error (fault i.method .illegalArgument "cannot invoke an abstract method non-virtually")
  else return ⟨i.method, target, .special⟩

/-- The call aimed at a target in a mode. -/
def retarget (i : Invocation) (mode : Mode) (target : TypeDesc) : Except Error Invocation :=
  match mode with
  | .virtual => i.virtual target
  | .interface => i.virtual target
  | .special => i.special target
  | mode =>
    if i.method.isStatic then
      .error (.of .assemble .illegalState "cannot retarget a static method")
    else .error (.of .assemble .illegalArgument ("cannot retarget to " ++ mode.name ++ " mode"))

end Invocation

end OperandStack
