import OperandStack.Toml.Document

/-!
# Recipes

A recipe declares the types it refers to, the type to be made, its fields, and its
methods with the way each is implemented. All names are kept as written.
-/

namespace OperandStack

/-- The declaration of a class or an interface. -/
structure TypeDecl where
  name : String := ""
  /-- `class` or `interface`. -/
  kind : String := ""
  /-- The super class; the root class if empty. -/
  superClass : String := ""
  interfaces : List String := []
  modifiers : List String := []
  deriving DecidableEq, Repr

/-- The declaration of a field. -/
structure FieldDecl where
  name : String := ""
  type : String := ""
  modifiers : List String := []
  deriving DecidableEq, Repr

/-- The declaration of a method. What a body has no use for is ignored. -/
structure MethodDecl where
  name : String := ""
  returns : String := ""
  parameters : List String := []
  modifiers : List String := []
  /-- The name of the way the method is implemented. -/
  body : String := ""
  /-- The value that a fixed body returns. -/
  value : Option Toml.Value := none
  /-- The type of that value; told from the value if empty. -/
  valueType : String := ""
  /-- The field that is read or written. -/
  field : String := ""
  /-- The method that is called: owner, name and descriptor. -/
  target : String := ""
  targetModifiers : List String := []
  /-- Whether a call may cast what it passes on. -/
  dynamic : Bool := false
  /-- The class of a thrown exception. -/
  exception : String := ""
  /-- The message of a thrown exception. -/
  message : String := ""

/-- A type to be made and all that it refers to. -/
structure Recipe where
  type : TypeDecl := {}
  /-- The types referred to, in the order of their definition. -/
  types : List TypeDecl := []
  fields : List FieldDecl := []
  methods : List MethodDecl := []

/-- A text, or a default if it is empty. -/
def orDefault (fallback s : String) : String := if s = "" then fallback else s

/-- A declaration without a kind declares a class. -/
def TypeDecl.withDefaults (t : TypeDecl) : TypeDecl := { t with kind := orDefault "class" t.kind }

/-- A method without a return type returns nothing, and one without a body is a stub. -/
def MethodDecl.withDefaults (m : MethodDecl) : MethodDecl :=
  { m with returns := orDefault "void" m.returns, body := orDefault "stub" m.body }

/-- A recipe with all that it leaves out filled in. -/
def Recipe.withDefaults (r : Recipe) : Recipe :=
  { r with
    type := r.type.withDefaults
    types := r.types.map TypeDecl.withDefaults
    methods := r.methods.map MethodDecl.withDefaults }

end OperandStack
