import OperandStack.Toml.Statement

/-!
# Documents

Statements build up the table of a document. A key is defined once, but a table that
so far is only implied, by a longer key, may still be defined. It is then taken over
as it is, unless the value at its path was last written as an array: then the new
value takes its place. The keys are kept in the order of the text, each as the whole
path to it. A path leads through an array of tables to the last of them, so all tables
of an array share their paths.
-/

namespace OperandStack.Toml

/-- A document under construction. -/
structure Document where
  /-- The table of the document. -/
  entries : Entries
  /-- The paths of tables that are implied only. -/
  implied : List (List String)
  /-- The paths at which the last value was written as an array. -/
  arrays : List (List String)
  /-- The path of the open table. -/
  current : List String
  /-- The paths of all keys in the order of the text, the last one first. -/
  keysReversed : List (List String)

namespace Document

/-- The empty document. -/
def empty : Document := ⟨[], [], [], [], []⟩

/-- The paths of all keys in the order of the text. -/
def keys (d : Document) : List (List String) := d.keysReversed.reverse

/-- The document with one more key. -/
def addKey (d : Document) (path : List String) : Document :=
  { d with keysReversed := path :: d.keysReversed }

/-- Changes the table at a path; on the way an array of tables stands for its last table. -/
def changeAt (f : Entries → Option Entries) : (path : List String) → Entries → Option Entries
  | [], entries => f entries
  | key :: path, entries =>
    match entries.get? key with
    | some (.table inner) => do return entries.put key (.table (← changeAt f path inner))
    | some (.tables items) =>
      match items.getLast? with
      | some (.table inner) => do
        return entries.put key (.tables (items.dropLast ++ [.table (← changeAt f path inner)]))
      | _ => none
    | _ => none

/-- The table at a path. -/
def tableAt? : (path : List String) → Entries → Option Entries
  | [], entries => some entries
  | key :: path, entries =>
    match entries.get? key with
    | some (.table inner) => tableAt? path inner
    | some (.tables items) =>
      match items.getLast? with
      | some (.table inner) => tableAt? path inner
      | _ => none
    | _ => none

/-- Notes that the table at a path is implied. -/
def addImplied (d : Document) (path : List String) : Document :=
  { d with implied := if d.implied.contains path then d.implied else path :: d.implied }

/-- Notes that the table at a path is more than implied. -/
def dropImplied (d : Document) (path : List String) : Document :=
  { d with implied := d.implied.filter (· ≠ path) }

/-- The path at which the form of a key's value is noted. An empty key stands for its table. -/
def formPath (path : List String) (key : String) : List String :=
  if key ≠ "" then path ++ [key] else if path.isEmpty then [""] else path

/-- Notes whether the value at a path is written as an array. -/
def noteForm (d : Document) (path : List String) (isArray : Bool) : Document :=
  if isArray then
    { d with arrays := if d.arrays.contains path then d.arrays else path :: d.arrays }
  else if d.arrays.contains path then { d with arrays := d.arrays.filter (· ≠ path) }
  else d

/-- Defines a key of the table at a path. -/
def define (d : Document) (path : List String) (key : String) (v : Value) : Option Document := do
  let whole := path ++ [key]
  let table ← tableAt? path d.entries
  let put (d : Document) : Option Document := do
    return { d with entries := ← changeAt (fun t => some (t.put key v)) path d.entries }
  if (table.get? key).isNone then put d
  else if !d.implied.contains whole then none
  else if d.arrays.contains whole then put (d.dropImplied whole)
  else return d.dropImplied whole

/-- Makes sure that every table on a path is there; those that are not become implied. -/
def imply (d : Document) (path : List String) : Option Document :=
  let rec go (d : Document) (before : List String) : List String → Option Document
    | [] => some d
    | key :: rest => do
      let table ← tableAt? before d.entries
      let whole := before ++ [key]
      match table.get? key with
      | none =>
        let entries ← changeAt (fun t => some (t.put key (.table []))) before d.entries
        go { d.addImplied whole with entries } whole rest
      | some (.table _) => go d whole rest
      | some (.tables _) => go d whole rest
      | some _ => none
  go d [] path

/-- Enters a table of its own at a path. -/
def enter (d : Document) (path : List String) : Option Document := do
  let d ← d.imply path.dropLast
  d.define path.dropLast (path.getLast?.getD "") (.table [])

/-- Enters the next table of an array at a path. -/
def enterNext (d : Document) (path : List String) : Option Document := do
  let d ← d.imply path.dropLast
  let last := path.getLast?.getD ""
  let add (t : Entries) : Option Entries :=
    match t.get? last with
    | none => some (t.put last (.tables [.table []]))
    | some (.tables items) => some (t.put last (.tables (items ++ [.table []])))
    | some _ => none
  return { d with entries := ← changeAt add path.dropLast d.entries }

/-- Enters one after another the tables that a dotted key goes through. Each is implied. -/
def enterDotted (d : Document) (path : List String) : List String → Option Document
  | [] => some d
  | key :: rest => do
    let whole := path ++ [key]
    enterDotted (← (d.addImplied whole).enter whole) whole rest

/-- Opens a table. -/
def openTable (d : Document) (path : List String) : Option Document := do
  let d ← d.enter path
  return { (d.noteForm path false).addKey path with current := path }

/-- Opens the next table of an array. -/
def openItem (d : Document) (path : List String) : Option Document := do
  let d ← d.enterNext path
  return { (d.noteForm path false).addKey path with current := path }

/-- Puts a value into nested tables under a dotted key; tables that are missing are made. -/
def putDotted (v : Value) : (key : List String) → Entries → Option Entries
  | [], entries => some entries
  | [last], entries => some (entries.put last v)
  | key :: rest, entries =>
    match entries.get? key with
    | none => do return entries.put key (.table (← putDotted v rest []))
    | some (.table inner) => do return entries.put key (.table (← putDotted v rest inner))
    | some _ => none

/-- Whether a written value is an array. -/
def isArray : Written → Bool
  | .array _ => true
  | _ => false

mutual

/-- The value of what is written for a key of the table at a path. An inline table is entered in
the document as well, as the next table of an array if it is an item of one. -/
def evaluate (d : Document) (path : List String) (key : String) (isItem : Bool) :
    Written → Option (Document × Value)
  | .scalar v => some (d, v)
  | .array items => do
    let (d, values) ← evaluateItems (d.noteForm (formPath path key) true) path key items
    return (d, .array values)
  | .inlineTable pairs => do
    let here := path ++ [key]
    let d := d.addImplied here
    let d ← if isItem then d.enterNext here else d.enter here
    let (d, entries) ← evaluatePairs d here [] pairs
    return (d, .table entries)

/-- The values of the items of an array. -/
def evaluateItems (d : Document) (path : List String) (key : String) :
    List Written → Option (Document × List Value)
  | [] => some (d, [])
  | w :: rest => do
    let (d, v) ← evaluate d path key true w
    let (d, values) ← evaluateItems d path key rest
    return (d, v :: values)

/-- The entries of an inline table at a path, with the pairs that were read already. -/
def evaluatePairs (d : Document) (path : List String) (entries : Entries) :
    List (List String × Written) → Option (Document × Entries)
  | [] => some (d, entries)
  | (key, w) :: rest => do
    let outer := path ++ key.dropLast
    let last := key.getLast?.getD ""
    let d ← d.enterDotted path key.dropLast
    let (d, v) ← evaluate (d.addKey (path ++ key)) outer last false w
    let d ← d.define outer last v
    let entries ← putDotted v key entries
    evaluatePairs (d.noteForm (formPath outer last) (isArray w)) path entries rest

end

/-- Gives a key of the open table a value. -/
def assign (d : Document) (key : List String) (w : Written) : Option Document := do
  let outer := d.current ++ key.dropLast
  let last := key.getLast?.getD ""
  let d ← d.enterDotted d.current key.dropLast
  let (d, v) ← evaluate (d.addKey (d.current ++ key)) outer last false w
  let d ← d.define outer last v
  return d.noteForm (formPath outer last) (isArray w)

/-- Carries out one statement. -/
def perform (d : Document) : Statement → Option Document
  | .openTable key => d.openTable key
  | .openItem key => d.openItem key
  | .assign key value => d.assign key value

/-- Carries out statements in order. -/
def performAll (d : Document) : List Statement → Option Document
  | [] => some d
  | s :: rest => do performAll (← d.perform s) rest

/-- The document of a text. -/
def ofText? (text : String) : Option Document := do empty.performAll (← statements? text)

end Document

end OperandStack.Toml
