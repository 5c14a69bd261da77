import OperandStack.Journal
import OperandStack.Recipe.Basic

/-!
# Reading recipes

A recipe is read from the table of a document, key by key. Keys match without regard
to case, and several spellings of one key add up. Values of the wrong sort are refused;
keys that mean nothing are ignored and noted.
-/

namespace OperandStack

open Toml (Value Entries)

/-- What the keys of a recipe may be: a key is a value, or leads to further keys. -/
inductive Schema where
  | value
  | keys (named : List (String × Schema))

namespace Schema

/-- Keys that each hold a value. -/
def ofNames (names : List String) : Schema := keys (names.map fun n => (n, value))

/-- The keys of a declared type. -/
def type : Schema := ofNames ["name", "kind", "super", "interfaces", "modifiers"]

/-- The keys of a field. -/
def field : Schema := ofNames ["name", "type", "modifiers"]

/-- The keys of a method. -/
def method : Schema := ofNames [
  "name", "returns", "params", "modifiers", "body", "value", "value-type", "field", "target",
  "target-modifiers", "dynamic", "exception", "message"]

/-- The keys of a recipe. -/
def recipe : Schema :=
  keys [("type", type), ("types", type), ("fields", field), ("methods", method)]

end Schema

/-- A character of a key with letters folded to small ones. Two letters past the first 128
characters count as forms of `k` and `s`. -/
def foldKeyChar (c : Char) : Char :=
  if c = '\u212a' then 'k' else if c = '\u017f' then 's' else c.toLower

/-- Whether a key spells a name, by any case. -/
def spells (key name : String) : Bool := key.map foldKeyChar = name

/-- The tables that a value holds. -/
def Toml.Value.innerTables : Value → List Entries
  | .table entries => [entries]
  | .array items => items.filterMap entriesOf?
  | .tables items => items.filterMap entriesOf?
  | _ => []
where
  /-- The entries of a value that is a table. -/
  entriesOf? : Value → Option Entries
    | .table entries => some entries
    | _ => none

/-- Whether a path of keys leads to a value that has a meaning. -/
def Schema.reaches (schema : Schema) (entries : Entries) : List String → Bool
  | [] => false
  | key :: path =>
    match schema with
    | value => false
    | keys named =>
      match named.find? fun (name, _) => spells key name, entries.get? key with
      | some (_, inner), some v =>
        path.isEmpty || v.innerTables.any fun table => inner.reaches table path
      | _, _ => false

namespace Toml.Value

/-- A value that is a text. -/
def text? : Value → Option String
  | .string s => some s
  | _ => none

/-- A value that is a truth value. -/
def flag? : Value → Option Bool
  | .boolean b => some b
  | _ => none

/-- The items of a value that is an array. -/
def items? : Value → Option (List Value)
  | .array items => some items
  | .tables items => some items
  | _ => none

/-- A value that is an array of texts. -/
def texts? (v : Value) : Option (List String) := do (← v.items?).mapM text?

/-- The entries of a value that is a table. -/
def entries? : Value → Option Entries
  | .table entries => some entries
  | _ => none

/-- Reads every table of an array. A table adds to what was read before under another spelling of
the key, if that was at least as long. -/
def update? {α : Type} (read : α → Entries → Option α) (blank : α) (before : List α) (v : Value) :
    Option (List α) := do
  let items ← v.items?
  let kept := if items.length ≤ before.length then before else []
  (items.zipIdx).mapM fun (item, i) => do read (kept[i]?.getD blank) (← item.entries?)

end Toml.Value

/-- Reads one key of the declaration of a type. -/
def TypeDecl.read (t : TypeDecl) (key : String) (v : Value) : Option TypeDecl :=
  if spells key "name" then do return { t with name := ← v.text? }
  else if spells key "kind" then do return { t with kind := ← v.text? }
  else if spells key "super" then do return { t with superClass := ← v.text? }
  else if spells key "interfaces" then do return { t with interfaces := ← v.texts? }
  else if spells key "modifiers" then do return { t with modifiers := ← v.texts? }
  else some t

/-- Reads the keys of the declaration of a type. -/
def TypeDecl.readAll (t : TypeDecl) (entries : Entries) : Option TypeDecl :=
  entries.foldlM (fun t (key, v) => t.read key v) t

/-- Reads one key of the declaration of a field. -/
def FieldDecl.read (f : FieldDecl) (key : String) (v : Value) : Option FieldDecl :=
  if spells key "name" then do return { f with name := ← v.text? }
  else if spells key "type" then do return { f with type := ← v.text? }
  else if spells key "modifiers" then do return { f with modifiers := ← v.texts? }
  else some f

/-- Reads the keys of the declaration of a field. -/
def FieldDecl.readAll (f : FieldDecl) (entries : Entries) : Option FieldDecl :=
  entries.foldlM (fun f (key, v) => f.read key v) f

/-- Reads one key of the declaration of a method. -/
def MethodDecl.read (m : MethodDecl) (key : String) (v : Value) : Option MethodDecl :=
  if spells key "name" then do return { m with name := ← v.text? }
  else if spells key "returns" then do return { m with returns := ← v.text? }
  else if spells key "params" then do return { m with parameters := ← v.texts? }
  else if spells key "modifiers" then do return { m with modifiers := ← v.texts? }
  else if spells key "body" then do return { m with body := ← v.text? }
  else if spells key "value" then some { m with value := some v }
  else if spells key "value-type" then do return { m with valueType := ← v.text? }
  else if spells key "field" then do return { m with field := ← v.text? }
  else if spells key "target" then do return { m with target := ← v.text? }
  else if spells key "target-modifiers" then do return { m with targetModifiers := ← v.texts? }
  else if spells key "dynamic" then do return { m with dynamic := ← v.flag? }
  else if spells key "exception" then do return { m with exception := ← v.text? }
  else if spells key "message" then do return { m with message := ← v.text? }
  else some m

/-- Reads the keys of the declaration of a method. -/
def MethodDecl.readAll (m : MethodDecl) (entries : Entries) : Option MethodDecl :=
  entries.foldlM (fun m (key, v) => m.read key v) m

namespace Recipe

/-- Reads one key of a recipe. -/
def read (r : Recipe) (key : String) (v : Value) : Option Recipe :=
  if spells key "type" then do return { r with type := ← r.type.readAll (← v.entries?) }
  else if spells key "types" then do
    return { r with types := ← v.update? TypeDecl.readAll {} r.types }
  else if spells key "fields" then do
    return { r with fields := ← v.update? FieldDecl.readAll {} r.fields }
  else if spells key "methods" then do
    return { r with methods := ← v.update? MethodDecl.readAll {} r.methods }
  else some r

/-- Reads a recipe from the table of a document, as it is written. -/
def ofEntries? (entries : Entries) : Option Recipe :=
  entries.foldlM (fun r (key, v) => r.read key v) {}

/-- The keys of a document that mean nothing, in the order of the text. -/
def ignoredKeys (d : Toml.Document) : List String :=
  (d.keys.filter fun key => !Schema.recipe.reaches d.entries key).map Toml.keyText

/-- Reads a recipe and fills in what it leaves out. -/
def parse (text : String) : Journaled Recipe := do
  match Toml.Document.ofText? text with
  | none => throw (.parseFailed "recipe" none)
  | some d =>
    match ofEntries? d.entries with
    | none => throw (.parseFailed "recipe" none)
    | some r =>
      (ignoredKeys d).forM fun key => Journaled.note (.ignoredKey key)
      return r.withDefaults

end Recipe

end OperandStack
