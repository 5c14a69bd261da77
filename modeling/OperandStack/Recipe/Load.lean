import OperandStack.Recipe.Plan
import OperandStack.Recipe.Reader

/-!
# Loading recipes

A recipe file is read, resolved against the built-in types, and assembled.
-/

namespace OperandStack

namespace Recipe

/-- The recipe in a file, given its bytes or the reason why they cannot be had. -/
def load (path : String) (content : Except String ByteArray) : Journaled Recipe := do
  match content with
  | .error reason => throw (.load ("read recipe " ++ path) (some (.plain reason)))
  | .ok bytes =>
    match String.fromUTF8? bytes with
    | none => throw (.parseFailed "recipe" none)
    | some text =>
      let r ← parse text
      Journaled.note (.loadedRecipe path r.type.name r.methods.length)
      return r

/-- The assembled type of a recipe in a file. -/
def loadAssembled (path : String) (content : Except String ByteArray) (limits : Limits) :
    Journaled AssembledType := do
  let r ← load path content
  (r.assemble limits .builtin).1

end Recipe

end OperandStack
