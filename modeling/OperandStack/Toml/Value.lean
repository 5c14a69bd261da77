import OperandStack.Text.Hex
import OperandStack.Toml.Moment

/-!
# Values of a document

A document is a table of values by key. Tables keep their keys in the order of the
text. Arrays that were built by table headers are kept apart from written ones.
-/

namespace OperandStack.Toml

/-- A value. -/
inductive Value where
  | string (text : String)
  | integer (n : Int64)
  /-- A 64-bit floating-point pattern. -/
  | float (bits : UInt64)
  | boolean (b : Bool)
  | moment (m : Moment)
  | array (items : List Value)
  | table (entries : List (String × Value))
  /-- An array of tables, each opened by a header. -/
  | tables (items : List Value)

instance : Inhabited Value := ⟨.table []⟩

/-- The entries of a table. -/
abbrev Entries := List (String × Value)

/-- The value under a key. -/
def Entries.get? (entries : Entries) (key : String) : Option Value :=
  (entries.find? fun (k, _) => k = key).map Prod.snd

/-- The entries with a value under a key; a new key comes last. -/
def Entries.put (entries : Entries) (key : String) (v : Value) : Entries :=
  if entries.any fun (k, _) => k = key then
    entries.map fun (k, old) => if k = key then (k, v) else (k, old)
  else entries ++ [(key, v)]

/-- Pairs sorted by key. -/
def sortByKey (pairs : List (String × String)) : List (String × String) :=
  pairs.mergeSort fun a b => decide (a.1 ≤ b.1)

namespace Value

mutual

/-- A value as messages show it. -/
def text : Value → String
  | string text => text
  | integer n => toString n.toInt
  | float bits => Number.doubleText bits
  | boolean b => toString b
  | moment m => m.text
  | array items => "[" ++ " ".intercalate (texts items) ++ "]"
  | tables items => "[" ++ " ".intercalate (texts items) ++ "]"
  | table entries =>
    let pairs := (sortByKey (entryTexts entries)).map fun (key, value) => key ++ ":" ++ value
    "map[" ++ " ".intercalate pairs ++ "]"

/-- Several values as messages show them. -/
def texts : List Value → List String
  | [] => []
  | v :: rest => v.text :: texts rest

/-- The entries of a table as messages show them. -/
def entryTexts : List (String × Value) → List (String × String)
  | [] => []
  | (key, v) :: rest => (key, v.text) :: entryTexts rest

end

/-- The name of the sort of a value as messages show it. -/
def sortName : Value → String
  | string _ => "string"
  | integer _ => "int64"
  | float _ => "float64"
  | boolean _ => "bool"
  | moment _ => "time.Time"
  | array _ => "[]interface \x7b\x7d"
  | table _ => "map[string]interface \x7b\x7d"
  | tables _ => "[]map[string]interface \x7b\x7d"

end Value

/-- Whether a character may stand in a key without quotes. -/
def isBareChar (c : Char) : Bool := c.isAlphanum || c = '_' || c = '-'

/-- A character of a quoted key. -/
def quoteKeyChar (c : Char) : List Char :=
  if c = '"' ∨ c = '\\' then ['\\', c]
  else match c.toNat with
    | 8 => ['\\', 'b']
    | 9 => ['\\', 't']
    | 10 => ['\\', 'n']
    | 12 => ['\\', 'f']
    | 13 => ['\\', 'r']
    | n => if n < 0x20 ∨ n = 0x7f then '\\' :: 'u' :: Text.hexDigits 4 n else [c]

/-- One part of a key, quoted if it needs to be. -/
def keyPartText (part : String) : String :=
  if part ≠ "" ∧ part.toList.all isBareChar then part
  else String.ofList ('"' :: (part.toList.flatMap quoteKeyChar ++ ['"']))

/-- A dotted key. -/
def keyText (key : List String) : String := ".".intercalate (key.map keyPartText)

end OperandStack.Toml
