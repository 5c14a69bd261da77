import OperandStack.Browser
import OperandStack.CommandLine

/-!
# The program

Reads and writes files and talks to the terminal. All decisions are made elsewhere.
-/

namespace OperandStack.Program

/-- The fault behind a failed operation on a file, if it is one of the usual ones. -/
def faultOf? : IO.Error → Option StorageFault
  | .noFileOrDirectory .. => some .missing
  | .inappropriateType _ code _ => some (if code = 20 then .notFolder else .isFolder)
  | _ => none

/-- The words for a failed operation on a file. -/
def reasonText (verb path : String) (e : IO.Error) : String :=
  verb ++ " " ++ path ++ ": " ++ (match faultOf? e with
    | some f => f.words
    | none => toString e)

/-- The bytes of a file, or why they cannot be had. -/
def readBytes (path : String) : IO (Except String ByteArray) := do
  try
    return .ok (← IO.FS.readBinFile path)
  catch e =>
    let verb := if faultOf? e = some .isFolder then "read" else "open"
    return .error (reasonText verb path e)

/-- Writes a file, or says why it cannot be written. -/
def writeBytes (path : String) (data : List UInt8) : IO (Except String Unit) := do
  try
    IO.FS.writeBinFile path ⟨data.toArray⟩
    return .ok ()
  catch e =>
    return .error (reasonText "open" path e)

/-- The key that a line of input names. -/
def keyOfLine (line : String) : Key :=
  match line with
  | "up" => .up
  | "down" => .down
  | "enter" => .enter
  | "esc" => .escape
  | "ctrl+c" => .interrupt
  | "backspace" => .backspace
  | "space" => .typed " "
  | s => .typed s

/-- What a look-up gives, or the error of an index that is out of range. -/
def found {α : Type} (answer : Option α) : IO α :=
  match answer with
  | some a => return a
  | none => throw (IO.userError "index out of range")

/-- Shows the browser, and acts on one key a line until it is left. -/
partial def browse (input : IO.FS.Stream) (b : Browser) : IO Unit := do
  IO.println (← found b.view?)
  let line ← input.getLine
  if line.isEmpty then return
  let key := keyOfLine (String.ofList (line.toList.filter (· ≠ '\n')))
  let (b, quit) ← found (b.step? (.key key))
  if quit then return
  browse input b

/-- Runs the program on its options. -/
def run (o : Options) : IO UInt32 := do
  let content ← readBytes o.recipe
  if o.interactive then
    let outcome := (Recipe.loadAssembled o.recipe content (CommandLine.limits o)).result
    browse (← IO.getStdin) ((Browser.initial o.recipe).load outcome)
    return 0
  let (result, toWrite) := CommandLine.list o content (← (← IO.getStdout).isTty)
  let result ← match toWrite with
    | none => pure result
    | some x => return ← report (CommandLine.finish result x (← writeBytes x.path x.data))
  report result
where
  /-- Prints a result and gives its exit code. -/
  report (result : RunResult) : IO UInt32 := do
    IO.print result.stdout
    IO.eprint result.stderr
    return UInt32.ofNat result.exitCode

end OperandStack.Program

/-- Lists the methods of a recipe, and writes them as a bundle on request. -/
def main (arguments : List String) : IO UInt32 := do
  match OperandStack.CommandLine.options arguments with
  | .error result =>
    IO.eprint result.stderr
    return UInt32.ofNat result.exitCode
  | .ok o => OperandStack.Program.run o
