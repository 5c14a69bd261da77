import OperandStack.Manipulation.Basic

/-!
# Local variables, instances, arrays and returns

Pieces that move values between the operand stack and the places they live in.
-/

namespace OperandStack.Manipulation

/-- The sort of local variable that holds values of a type. -/
def localSort (t : TypeDesc) : Except Error Computational :=
  match t.kind.computational? with
  | some c => .ok c
  | none => .error (.of .assemble .illegalArgument "void has no local variable representation")

/-- Pushes the local variable at a slot. -/
def load (c : Computational) (slot : Int64) : Manipulation :=
  if slot < 0 then illegal else atom (.load c slot)

/-- Pops into the local variable at a slot. -/
def store (c : Computational) (slot : Int64) : Manipulation :=
  if slot < 0 then illegal else atom (.store c slot)

/-- Adds to the local int variable at a slot. -/
def increment (slot : Int64) (delta : Int32) : Manipulation :=
  if slot < 0 then illegal else atom (.increment slot delta)

/-- Pushes the receiver. -/
def loadThis : Manipulation := load .reference 0

/-- Pushes parameters that start at a slot. A parameter of type `void` has no place. -/
def loadFrom (slot : Nat) : List TypeDesc → List Manipulation
  | [] => []
  | t :: rest =>
    match t.kind.computational? with
    | some c => load c (Int64.ofNat slot) :: loadFrom (slot + c.size.slots.toNat) rest
    | none => illegal :: loadFrom slot rest

/-- Pushes all parameters of a method. -/
def loadParameters (m : Method) : Manipulation := compose (loadFrom m.firstSlot m.parameters)

/-- Pushes the receiver, if there is one, and all parameters. -/
def loadArguments (m : Method) : Manipulation :=
  compose ((if m.isStatic then [] else [loadThis]) ++ [loadParameters m])

/-- Pushes one parameter of a method. -/
def loadParameter (m : Method) (i : Int64) : Except Error Manipulation :=
  let outOfRange : Error := .report {
    phase := some .assemble
    kind := .illegalArgument
    member := m.text
    value := some (toString i.toInt)
    detail := "parameter index out of range" }
  if i < 0 then .error outOfRange
  else match m.parameters[i.toInt.toNat]?, m.parameterSlot? i.toInt.toNat with
    | some t, some slot => do
      let c ← localSort t
      return load c (Int64.ofNat slot)
    | _, _ => .error outOfRange

/-- Returns a value of a type, or nothing for `void`. -/
def giveBack (t : TypeDesc) : Manipulation := atom (.giveBack t.kind.computational?)

/-- Pushes a new instance. Arrays, abstract types and types without instances have none. -/
def create (t : TypeDesc) : Manipulation :=
  if !t.isReference || t.isArray || t.isAbstract then illegal else atom (.create t)

/-- What arrays of a type hold. -/
def component (t : TypeDesc) : Except Error Component :=
  match Component.ofType? t with
  | some c => .ok c
  | none => .error (.report {
      phase := some .assemble
      kind := .illegalArgument
      type := t.text
      detail := "arrays cannot hold void" })

/-- Replaces an array and an index by the element. -/
def loadElement (t : TypeDesc) : Manipulation :=
  match Component.ofType? t with
  | some c => atom (.loadElement c)
  | none => illegal

/-- Stores an element into an array. -/
def storeElement (t : TypeDesc) : Manipulation :=
  match Component.ofType? t with
  | some c => atom (.storeElement c)
  | none => illegal

end OperandStack.Manipulation
