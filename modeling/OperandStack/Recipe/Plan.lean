import OperandStack.Body
import OperandStack.Frame
import OperandStack.Recipe.Basic
import OperandStack.Type.Table

/-!
# Plans

A recipe is resolved against a type table: its types are defined in order, then its
fields and methods are described. The outcome is a plan. On a failure the types
defined before it stay in the table, and the error says where in the recipe it lies.
-/

namespace OperandStack

/-- A method and the way it is implemented. -/
structure PlannedMethod where
  method : Method
  implementation : Implementation
  /-- The name of the way it is implemented. -/
  body : String

/-- A recipe whose names are all resolved. -/
structure Plan where
  type : TypeDesc
  fields : List Field
  methods : List PlannedMethod

/-- An input that a recipe cannot ask for. -/
def invalidInput (detail : String) : Error := .of .load .invalidInput detail

/-- The flags of a list of keywords. -/
def resolveModifiers : List String → Except Error Modifiers
  | [] => .ok .empty
  | name :: rest =>
    match Modifiers.ofKeyword? name with
    | some flag => return flag.union (← resolveModifiers rest)
    | none => .error (.report {
        phase := some .load
        kind := .invalidInput
        path := ["modifiers"]
        value := some name
        detail := "unknown modifier " ++ Text.quote name })

/-- The interfaces of a list of names. -/
def resolveInterfaces (table : TypeTable) : List String → Except Error (List TypeDesc)
  | [] => .ok []
  | name :: rest => do
    let t ← table.describe name
    if t.isInterface then return t :: (← resolveInterfaces table rest)
    else .error (.report {
      phase := some .load
      kind := .invalidInput
      type := t.text
      detail := "implemented type is not an interface" })

/-- The super class of a name; the root class if the name is empty. -/
def resolveSuper (table : TypeTable) (name : String) : Except Error TypeDesc :=
  if name = "" then .ok .object
  else do
    let t ← table.describe name
    if t.isInterface || t.isPrimitive || t.isArray then
      .error (.report {
        phase := some .load
        kind := .invalidInput
        type := t.text
        detail := "cannot extend " ++ t.text })
    else return t

/-- The type that a declaration stands for. -/
def TypeDecl.resolve (table : TypeTable) (d : TypeDecl) : Except Error TypeDesc :=
  if d.name = "" then .error (invalidInput "type without name")
  else do
    let modifiers ← resolveModifiers d.modifiers
    let interfaces ← resolveInterfaces table d.interfaces
    let name := TypeTable.internalName d.name
    match d.kind with
    | "interface" => return .ofInterface name modifiers interfaces
    | "class" =>
      let superClass ← resolveSuper table d.superClass
      return .ofClass name modifiers (some superClass) interfaces
    | kind => .error (.report {
        phase := some .load
        kind := .invalidInput
        value := some kind
        detail := "unknown type kind " ++ Text.quote kind })

/-- The field that a declaration stands for. -/
def FieldDecl.resolve (table : TypeTable) (owner : TypeDesc) (d : FieldDecl) :
    Except Error Field := do
  let type ← table.describe d.type
  if type.isVoid then
    .error (.of .load .illegalArgument ("field " ++ d.name ++ " cannot be void"))
  else return ⟨owner, d.name, ← resolveModifiers d.modifiers, type⟩

/-- The parameter types of a method. -/
def resolveParameters (table : TypeTable) (method : String) :
    List String → Except Error (List TypeDesc)
  | [] => .ok []
  | name :: rest => do
    let t ← table.describe name
    if t.isVoid then
      .error (.of .load .illegalArgument ("parameter of " ++ method ++ " cannot be void"))
    else return t :: (← resolveParameters table method rest)

/-- The method that a target names: owner, a point, the name, and the descriptor. It is public
unless it has other modifiers. -/
def resolveTarget (table : TypeTable) (target : String) (modifiers : List String) :
    Except Error Method := do
  let path := target.toList.takeWhile (· ≠ '(')
  let descriptor := target.toList.dropWhile (· ≠ '(')
  if descriptor.isEmpty then
    .error (invalidInput ("delegate target needs a descriptor: " ++ target))
  else
    let reversedName := path.reverse.takeWhile (· ≠ '.')
    let reversedOwner := (path.reverse.dropWhile (· ≠ '.')).drop 1
    if reversedName.isEmpty || reversedOwner.isEmpty then
      .error (invalidInput ("delegate target needs an owner and a name: " ++ target))
    else
      let owner ← table.describe (String.ofList reversedOwner.reverse)
      let signature ← table.parseMethod (String.ofList descriptor)
      let flags ← resolveModifiers modifiers
      let flags := if flags = .empty then .isPublic else flags
      return ⟨owner, String.ofList reversedName.reverse, flags, signature.returns,
        signature.parameters⟩

/-- Whether a number lies in the range of an integral type of at most 32 bits. -/
def fitsPrimitive : Primitive → Int64 → Bool
  | .byte, v => -128 ≤ v && v ≤ 127
  | .short, v => -32768 ≤ v && v ≤ 32767
  | .char, v => 0 ≤ v && v ≤ 65535
  | _, v => -2147483648 ≤ v && v ≤ 2147483647

/-- The type that a value has if none is given. -/
def impliedType : Option Toml.Value → Except Error String
  | some (.integer v) => .ok (if fitsPrimitive .int v then "int" else "long")
  | some (.float _) => .ok "double"
  | some (.boolean _) => .ok "boolean"
  | some (.string _) => .ok "java.lang.String"
  | none => .error (invalidInput "fixed body needs a value")
  | some v => .error (.report {
      phase := some .load
      kind := .invalidInput
      value := some v.text
      detail := "unsupported fixed value " ++ v.sortName })

/-- The literal of a type that a value stands for, and the type it has then. A text has the type of
texts wherever such a text fits. -/
def fittingLiteral? (type : TypeDesc) : Option Toml.Value → Option (Literal × TypeDesc)
  | some (.boolean b) =>
    match type.kind with
    | .primitive .boolean => some (.ofBool b, type)
    | _ => none
  | some (.integer v) =>
    match type.kind with
    | .primitive .boolean => none
    | .primitive .long => some (.long v, type)
    | .primitive .float => some (.float (Number.singleOfDouble (Number.doubleOfInt v.toInt)), type)
    | .primitive .double => some (.double (Number.doubleOfInt v.toInt), type)
    | .primitive p => if fitsPrimitive p v then some (.int v.toInt32, type) else none
    | _ => none
  | some (.float bits) =>
    match type.kind with
    | .primitive .float => some (.float (Number.singleOfDouble bits), type)
    | .primitive .double => some (.double bits, type)
    | _ => none
  | some (.string s) =>
    match type.kind with
    | .reference => if type.isAssignableFrom .string then some (.text s, .string) else none
    | _ => none
  | _ => none

/-- The literal of a fixed body and its type. -/
def resolveFixed (table : TypeTable) (value : Option Toml.Value) (typeName : String) :
    Except Error (Literal × TypeDesc) := do
  let typeName ← if typeName = "" then impliedType value else .ok typeName
  let type ← table.describe typeName
  let shown := value.map Toml.Value.text
  match fittingLiteral? type value with
  | some result => return result
  | none => .error (.report {
      phase := some .load
      kind := .invalidInput
      type := type.text
      value := shown
      detail := "value " ++ shown.getD "<nil>" ++ " does not fit " ++ type.text })

/-- The field with a name; of several the last one. -/
def findField (fields : List Field) (name : String) : Except Error Field :=
  match fields.reverse.find? fun f => f.name = name with
  | some f => .ok f
  | none => .error (.notFound (some .load) "field" name)

/-- The way a method is implemented. -/
def MethodDecl.implementation (table : TypeTable) (fields : List Field) (d : MethodDecl) :
    Except Error Implementation :=
  match d.body with
  | "stub" => .ok .stub
  | "super" => .ok .superCall
  | "arguments" => .ok .argumentArray
  | "fixed" => do
    let (literal, type) ← resolveFixed table d.value d.valueType
    return .fixed (Manipulation.push literal) type
  | "getter" => do return .getter (← findField fields d.field)
  | "setter" => do return .setter (← findField fields d.field)
  | "delegate" => do
    return .delegate (← resolveTarget table d.target d.targetModifiers) d.dynamic
  | "throw" => do
    return .throwing (← table.describe (orDefault "java/lang/Throwable" d.exception)) d.message
  | body => .error (.report {
      phase := some .load
      kind := .unsupported
      path := ["body"]
      value := some body
      detail := "unknown body " ++ Text.quote body })

/-- The method that a declaration stands for. A constructor has no return type of its own. -/
def MethodDecl.resolve (table : TypeTable) (owner : TypeDesc) (fields : List Field)
    (d : MethodDecl) : Except Error PlannedMethod := do
  let returns ← table.describe d.returns
  let parameters ← resolveParameters table d.name d.parameters
  let modifiers ← resolveModifiers d.modifiers
  let method :=
    if d.name = Method.constructorName then Method.ofConstructor owner modifiers parameters
    else ⟨owner, d.name, modifiers, returns, parameters⟩
  return ⟨method, ← d.implementation table fields, d.body⟩

namespace Recipe

/-- Defines types in order from an index on. The table holds all that were defined before a
failure. -/
def defineTypes (i : Nat) (table : TypeTable) : List TypeDecl → Except Error Unit × TypeTable
  | [] => (.ok (), table)
  | d :: rest =>
    match d.resolve table with
    | .error e => (.error (e.within ["types", toString i]), table)
    | .ok t => defineTypes (i + 1) (table.define t) rest

/-- Resolves fields in order from an index on. -/
def resolveFields (table : TypeTable) (owner : TypeDesc) (i : Nat) :
    List FieldDecl → Except Error (List Field)
  | [] => .ok []
  | d :: rest =>
    match d.resolve table owner with
    | .error e => .error (e.within ["fields", toString i])
    | .ok f => return f :: (← resolveFields table owner (i + 1) rest)

/-- Resolves methods in order from an index on. -/
def resolveMethods (table : TypeTable) (owner : TypeDesc) (fields : List Field) (i : Nat) :
    List MethodDecl → Except Error (List PlannedMethod)
  | [] => .ok []
  | d :: rest =>
    match d.resolve table owner fields with
    | .error e => .error (e.within ["methods", toString i])
    | .ok m => return m :: (← resolveMethods table owner fields (i + 1) rest)

/-- The plan of a recipe, and the table with the types it has defined. -/
def resolve (r : Recipe) (table : TypeTable) : Except Error Plan × TypeTable :=
  match defineTypes 0 table r.types with
  | (.error e, table) => (.error e, table)
  | (.ok (), table) =>
    match r.type.resolve table with
    | .error e => (.error (e.within ["type"]), table)
    | .ok type =>
      let table := table.define type
      let plan := do
        let fields ← resolveFields table type 0 r.fields
        let methods ← resolveMethods table type fields 0 r.methods
        return ⟨type, fields, methods⟩
      (plan, table)

end Recipe

namespace Plan

/-- Assembles methods in order up to the first failure. -/
def assembleMethods (limits : Limits) : List PlannedMethod → Journaled (List MethodCode)
  | [] => return []
  | m :: rest => do
    let body ← liftExcept (m.implementation.body m.method)
    let code ← assembleMethod limits m.method body
    return code :: (← assembleMethods limits rest)

/-- Assembles all methods of a plan. -/
def assemble (p : Plan) (limits : Limits) : Journaled (List MethodCode) := do
  let methods ← assembleMethods limits p.methods
  Journaled.note (.assembledRecipe p.type.text methods.length)
  return methods

end Plan

/-- A plan and its assembled methods. -/
structure AssembledType where
  plan : Plan
  methods : List MethodCode

/-- Resolves a recipe and assembles its methods. The table holds what the recipe has defined, also
after a failure. -/
def Recipe.assemble (r : Recipe) (limits : Limits) (table : TypeTable) :
    Journaled AssembledType × TypeTable :=
  let (plan, table) := r.resolve table
  let work := do
    let plan ← liftExcept plan
    return ⟨plan, ← plan.assemble limits⟩
  (work, table)

end OperandStack
