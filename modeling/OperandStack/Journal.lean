import OperandStack.Error

/-!
# Journals

Assembly keeps a journal of what it has done and of what it has ignored. The
entries up to a failure stay.
-/

namespace OperandStack

/-- An entry of a journal. -/
inductive Event where
  /-- A key of a recipe that means nothing. -/
  | ignoredKey (key : String)
  /-- A recipe that was read from a file. -/
  | loadedRecipe (path type : String) (methods : Nat)
  /-- A method whose body was emitted. -/
  | assembledMethod (method : String) (instructions : Nat) (net maxStack maxLocals : Int64)
  /-- A method whose code array was laid down. -/
  | encodedMethod (method : String) (codeLength poolCount : Nat)
  /-- A recipe all of whose methods were assembled. -/
  | assembledRecipe (type : String) (methods : Nat)
  deriving DecidableEq, Repr

namespace Event

/-- How much attention an entry asks for. -/
def level : Event → String
  | ignoredKey _ => "warn"
  | _ => "debug"

/-- What an entry says. -/
def message : Event → String
  | ignoredKey _ => "ignoring unknown recipe key"
  | loadedRecipe .. => "loaded recipe"
  | assembledMethod .. => "assembled method"
  | encodedMethod .. => "encoded method"
  | assembledRecipe .. => "assembled recipe"

/-- What an entry is about, by name. -/
def fields : Event → List (String × Text.Argument)
  | ignoredKey key => [("key", .text key)]
  | loadedRecipe path type methods =>
    [("path", .text path), ("type", .text type), ("methods", .number methods)]
  | assembledMethod method instructions net maxStack maxLocals =>
    [("method", .text method), ("instructions", .number instructions), ("net", .number net.toInt),
      ("max_stack", .number maxStack.toInt), ("max_locals", .number maxLocals.toInt)]
  | encodedMethod method codeLength poolCount =>
    [("method", .text method), ("code_length", .number codeLength),
      ("pool_count", .number poolCount)]
  | assembledRecipe type methods => [("type", .text type), ("methods", .number methods)]

end Event

/-- Work that keeps a journal and may fail. -/
abbrev Journaled (α : Type) := ExceptT Error (StateM (Array Event)) α

namespace Journaled

/-- Adds an entry. -/
def note (e : Event) : Journaled Unit := modify (·.push e)

/-- Runs work from an empty journal. -/
def outcome {α : Type} (work : Journaled α) : Except Error α × Array Event :=
  StateT.run (ExceptT.run work) #[]

/-- The result of work, without its journal. -/
def result {α : Type} (work : Journaled α) : Except Error α := work.outcome.1

end Journaled

end OperandStack
