import OperandStack.Bundle
import OperandStack.Listing
import OperandStack.Recipe.Load
import OperandStack.Storage

/-!
# The command line

Flags are read from the front of the arguments up to the first that is none. A flag
has one or two dashes, and its value follows an equals sign or, unless it is a truth
value, stands in the next argument.
-/

namespace OperandStack

/-- What the command line asks for. -/
structure Options where
  /-- The recipe file. -/
  recipe : String := ""
  /-- The file for the bundle; none if empty. -/
  output : String := ""
  /-- Whether the code arrays are listed. -/
  showCode : Bool := false
  maxStack : Int64 := Limits.greatest
  maxLocals : Int64 := Limits.greatest
  /-- Whether the journal is shown. -/
  verbose : Bool := false
  /-- Whether the browser is started. -/
  interactive : Bool := false
  deriving DecidableEq, Repr

/-- Why a text is no number of 64 bits. -/
inductive NumberError where
  | malformed
  | outOfRange
  deriving DecidableEq, Repr

/-- The words for a text that is no number. -/
def NumberError.message : NumberError → String
  | malformed => "parse error"
  | outOfRange => "value out of range"

/-- Why a command line cannot be carried out. -/
inductive FlagError where
  | badSyntax (argument : String)
  | unknown (flag : String)
  | missingArgument (flag : String)
  | invalidBoolean (value flag : String)
  | invalidNumber (value flag : String) (reason : NumberError)
  /-- The flags are asked for, which is no fault. -/
  | help
  deriving DecidableEq, Repr

namespace FlagError

/-- The line that says what is wrong. -/
def message : FlagError → String
  | badSyntax argument => "bad flag syntax: " ++ argument ++ "\n"
  | unknown flag => "flag provided but not defined: -" ++ flag ++ "\n"
  | missingArgument flag => "flag needs an argument: -" ++ flag ++ "\n"
  | invalidBoolean value flag =>
    "invalid boolean value " ++ Text.quote value ++ " for -" ++ flag ++ ": parse error\n"
  | invalidNumber value flag reason =>
    "invalid value " ++ Text.quote value ++ " for flag -" ++ flag ++ ": " ++
      reason.message ++ "\n"
  | help => ""

/-- The exit code. -/
def exitCode : FlagError → Nat
  | help => 0
  | _ => 2

end FlagError

namespace CommandLine

/-- The flags with what they are for. -/
def flagHelp : String := String.join [
  "Usage of stackasm:\n",
  "  -hex\n    \tPrint the encoded code array of every method\n",
  "  -i\tInteractive mode with TUI\n",
  "  -max-locals int\n    \tLocal variable limit (default 65535)\n",
  "  -max-stack int\n    \tOperand stack limit (default 65535)\n",
  "  -o string\n    \tWrite the assembled methods as CBOR to this file\n",
  "  -recipe string\n    \tPath to a TOML recipe\n",
  "  -v\tLog assembly steps to stderr\n"]

/-- How to call the program. -/
def usage : String := String.join [
  "Usage: stackasm -recipe <file.toml> [-o out.cbor] [-hex] [-v]\n",
  "       stackasm -recipe <file.toml> -i  (interactive mode)\n"]

/-- A truth value. -/
def boolean? (s : String) : Option Bool :=
  if ["1", "t", "T", "TRUE", "true", "True"].contains s then some true
  else if ["0", "f", "F", "FALSE", "false", "False"].contains s then some false
  else none

/-- The base of a number and the digits behind the sign of the base. -/
def splitBase : List Char → Nat × List Char
  | '0' :: b :: d :: rest =>
    match b.toLower with
    | 'b' => (2, d :: rest)
    | 'o' => (8, d :: rest)
    | 'x' => (16, d :: rest)
    | _ => (8, b :: d :: rest)
  | '0' :: rest => (8, rest)
  | cs => (10, cs)

/-- The value of a digit or letter. -/
def digit? (c : Char) : Option Nat :=
  if c.isDigit then some (c.toNat - '0'.toNat)
  else if c.isAlpha then some (c.toLower.toNat - 'a'.toNat + 10)
  else none

/-- The value of digits with underscores between them. Reading stops at any other character, and as
soon as the value needs more than 64 bits. -/
def digitsValue (base : Nat) (n : Nat) : List Char → Except NumberError Nat
  | [] => .ok n
  | '_' :: rest => digitsValue base n rest
  | c :: rest =>
    match digit? c with
    | none => .error .malformed
    | some d =>
      if base ≤ d then .error .malformed
      else if 2 ^ 64 ≤ base * n + d then .error .outOfRange
      else digitsValue base (base * n + d) rest

/-- Whether underscores only part digits; a sign of the base counts as a digit. -/
def underscoresPart (cs : List Char) : Bool :=
  let (hex, afterDigit, digits) := match cs with
    | '0' :: b :: rest =>
      match b.toLower with
      | 'x' => (true, true, rest)
      | 'b' => (false, true, rest)
      | 'o' => (false, true, rest)
      | _ => (false, false, cs)
    | _ => (false, false, cs)
  let rec go (afterDigit afterScore : Bool) : List Char → Bool
    | [] => !afterScore
    | c :: rest =>
      if c.isDigit || (hex && (Text.hexValue? c).isSome) then go true false rest
      else if c = '_' then afterDigit && go false true rest
      else !afterScore && go false false rest
  go afterDigit false digits

/-- A number of 64 bits, or what is wrong with it. -/
def number (s : String) : Except NumberError Int64 := do
  let (negative, magnitude) := match s.toList with
    | '-' :: rest => (true, rest)
    | '+' :: rest => (false, rest)
    | cs => (false, cs)
  if magnitude.isEmpty then .error .malformed
  else
    let (base, digits) := splitBase magnitude
    let n ← digitsValue base 0 digits
    if magnitude.contains '_' && !underscoresPart magnitude then .error .malformed
    else if negative then
      if 2 ^ 63 < n then .error .outOfRange else .ok (Int64.ofInt (-n))
    else if 2 ^ 63 ≤ n then .error .outOfRange
    else .ok (Int64.ofNat n)

/-- An argument as a flag: nothing if it is none, else its name and the value behind an equals
sign. -/
def splitFlag (argument : String) : Except FlagError (Option (String × Option String)) :=
  match argument.toList with
  | '-' :: c :: rest =>
    let body := if c = '-' then rest else c :: rest
    match body with
    | [] => .ok none
    | '-' :: _ => .error (.badSyntax argument)
    | '=' :: _ => .error (.badSyntax argument)
    | body =>
      let name := String.ofList (body.takeWhile (· ≠ '='))
      match body.dropWhile (· ≠ '=') with
      | [] => .ok (some (name, none))
      | _ :: value => .ok (some (name, some (String.ofList value)))
  | _ => .ok none

/-- A flag of the program, with the way it changes the options. -/
inductive Flag where
  | boolean (set : Bool → Options)
  | number (set : Int64 → Options)
  | text (set : String → Options)

/-- The flag with a name. -/
def flag? (o : Options) : String → Option Flag
  | "recipe" => some (.text fun s => { o with recipe := s })
  | "o" => some (.text fun s => { o with output := s })
  | "hex" => some (.boolean fun b => { o with showCode := b })
  | "max-stack" => some (.number fun n => { o with maxStack := n })
  | "max-locals" => some (.number fun n => { o with maxLocals := n })
  | "v" => some (.boolean fun b => { o with verbose := b })
  | "i" => some (.boolean fun b => { o with interactive := b })
  | _ => none

/-- The options with a value given to a flag that takes one. -/
def setValue (name value : String) : Flag → Except FlagError Options
  | .boolean set =>
    match boolean? value with
    | some b => .ok (set b)
    | none => .error (.invalidBoolean value name)
  | .number set =>
    match number value with
    | .ok n => .ok (set n)
    | .error reason => .error (.invalidNumber value name reason)
  | .text set => .ok (set value)

/-- Reads flags from the front of the arguments. -/
def parse (o : Options) : List String → Except FlagError Options
  | [] => .ok o
  | argument :: rest => do
    match ← splitFlag argument with
    | none => return o
    | some (name, given) =>
      match flag? o name, given with
      | none, _ => .error (if name = "help" ∨ name = "h" then .help else .unknown name)
      | some flag, some value => parse (← setValue name value flag) rest
      | some (.boolean set), none => parse (set true) rest
      | some flag, none =>
        match rest with
        | [] => .error (.missingArgument name)
        | value :: rest => parse (← setValue name value flag) rest

end CommandLine

/-- What a run of the program leaves behind. -/
structure RunResult where
  exitCode : Nat
  stdout : String
  stderr : String
  deriving DecidableEq, Repr

/-- A bundle that is to be written to a file. -/
structure Export where
  path : String
  data : List UInt8
  methods : Nat

/-- The result of an error. -/
def RunResult.ofError (stdout message : String) : RunResult :=
  ⟨1, stdout, "Error: " ++ message ++ "\n"⟩

namespace CommandLine

/-- One line of the journal. -/
def eventLine (e : Event) : String :=
  let fieldText : String × Text.Argument → String
    | (name, .text s) => Text.quote name ++ ": " ++ Text.quote s
    | (name, .number n) => Text.quote name ++ ": " ++ toString n
  e.level.toUpper ++ "\t" ++ e.message ++ "\t\x7b" ++ ", ".intercalate (e.fields.map fieldText) ++
    "\x7d\n"

/-- The journal, if it is to be shown. -/
def journalText (o : Options) (events : Array Event) : String :=
  if o.verbose then String.join (events.toList.map eventLine) else ""

/-- The limits that the options ask for. -/
def limits (o : Options) : Limits := ⟨o.maxStack, o.maxLocals, false⟩

/-- Lists a recipe, given the content of its file, and says what is to be written. -/
def list (o : Options) (content : Except String ByteArray) (styled : Bool) :
    RunResult × Option Export :=
  let (outcome, events) := (Recipe.loadAssembled o.recipe content (limits o)).outcome
  let journal := journalText o events
  match outcome with
  | .error e =>
    let result := RunResult.ofError "" e.message
    ({ result with stderr := journal ++ result.stderr }, none)
  | .ok a =>
    let result : RunResult := ⟨0, a.listing styled o.showCode, journal⟩
    if o.output = "" then (result, none)
    else
      let bundle := Bundle.ofMethods a.plan.type.name a.methods
      (result, some ⟨o.output, bundle.encode, a.methods.length⟩)

/-- The result once the bundle has been written, or could not be. -/
def finish (result : RunResult) (x : Export) : Except String Unit → RunResult
  | .ok () =>
    let note := "\nWrote " ++ toString x.methods ++ " methods (" ++ toString x.data.length ++
      " bytes) to " ++ x.path ++ "\n"
    { result with stdout := result.stdout ++ note }
  | .error reason =>
    { result with
      exitCode := 1
      stderr := result.stderr ++ "Error: write " ++ x.path ++ ": " ++ reason ++ "\n" }

/-- The options of the arguments, or the result of arguments that ask for nothing. -/
def options (arguments : List String) : Except RunResult Options :=
  match parse {} arguments with
  | .error e => .error ⟨e.exitCode, "", e.message ++ flagHelp⟩
  | .ok o => if o.recipe = "" then .error ⟨1, "", usage⟩ else .ok o

/-- A run of the program without a terminal: what it prints, and the storage that it leaves. -/
def run (arguments : List String) (s : Storage) : RunResult × Storage :=
  match options arguments with
  | .error result => (result, s)
  | .ok o =>
    match list o (s.read o.recipe) false with
    | (result, none) => (result, s)
    | (result, some x) =>
      match s.write x.path ⟨x.data.toArray⟩ with
      | .ok after => (finish result x (.ok ()), after)
      | .error reason => (finish result x (.error reason), s)

end CommandLine

end OperandStack
