import OperandStack.Text.Template

/-!
# Errors

An error is a plain text or a report. A report names the phase of the work, the
kind of fault and what it concerns, and may rest on another error, its cause.
All wording of the general form is in `Error.message`.
-/

namespace OperandStack

/-- The phase of the work in which an error arose. -/
inductive Phase where
  /-- Descriptions of types and members. -/
  | describe
  /-- Construction and emission of bodies. -/
  | assemble
  /-- Logical instructions to code bytes. -/
  | encode
  /-- Loading of recipes. -/
  | load
  /-- Reading of descriptors and recipes. -/
  | parse
  /-- A phase known by its name only. -/
  | other (name : String)
  deriving DecidableEq, Repr

namespace Phase

/-- The name of a phase as messages show it. -/
def name : Phase → String
  | describe => "describe"
  | assemble => "assemble"
  | encode => "encode"
  | load => "load"
  | parse => "parse"
  | other name => name

/-- The phase with a name; the empty name stands for no phase at all. -/
def ofName? : String → Option Phase
  | "" => none
  | "describe" => some describe
  | "assemble" => some assemble
  | "encode" => some encode
  | "load" => some load
  | "parse" => some parse
  | name => some (other name)

end Phase

/-- The kind of a fault. -/
inductive ErrorKind where
  /-- An argument that can never be right. -/
  | illegalArgument
  /-- An operation that its receiver does not allow. -/
  | illegalState
  /-- Data that do not follow their format. -/
  | invalidData
  /-- Input that says something impossible. -/
  | invalidInput
  /-- A name that stands for nothing. -/
  | notFound
  /-- A request outside what is offered. -/
  | unsupported
  /-- A quantity beyond its limit. -/
  | overflow
  /-- A kind known by its name only. -/
  | other (name : String)
  deriving DecidableEq, Repr

namespace ErrorKind

/-- The name of a kind as messages show it. -/
def name : ErrorKind → String
  | illegalArgument => "illegal_argument"
  | illegalState => "illegal_state"
  | invalidData => "invalid_data"
  | invalidInput => "invalid_input"
  | notFound => "not_found"
  | unsupported => "unsupported"
  | overflow => "overflow"
  | other name => name

/-- The kind with a name. -/
def ofName : String → ErrorKind
  | "illegal_argument" => illegalArgument
  | "illegal_state" => illegalState
  | "invalid_data" => invalidData
  | "invalid_input" => invalidInput
  | "not_found" => notFound
  | "unsupported" => unsupported
  | "overflow" => overflow
  | name => other name

end ErrorKind

/-- What is known about a fault. Empty texts say that nothing is known. -/
structure Report where
  /-- The phase, if one is known. -/
  phase : Option Phase := none
  /-- The kind of the fault. -/
  kind : ErrorKind
  /-- Where the fault lies, outermost part first. -/
  path : List String := []
  /-- The field or method concerned. -/
  member : String := ""
  /-- The type concerned. -/
  type : String := ""
  /-- What went wrong. -/
  detail : String := ""
  /-- The offending value as it is shown. -/
  value : Option String := none
  deriving DecidableEq, Repr

namespace Report

/-- The member and the type concerned. -/
def subject (r : Report) : String :=
  match r.member, r.type with
  | "", "" => ""
  | member, "" => ": member " ++ member
  | "", type => ": type " ++ type
  | member, type => ": member " ++ member ++ ", type " ++ type

/-- The text of a report without its cause. -/
def message (r : Report) : String :=
  let phase := (r.phase.map Phase.name).getD ""
  let place := if r.path.isEmpty then "" else " at " ++ ".".intercalate r.path
  let detail :=
    if r.detail = "" then ""
    else if r.subject = "" then ": " ++ r.detail
    else " - " ++ r.detail
  "[" ++ phase ++ "] " ++ r.kind.name ++ place ++ r.subject ++ detail

/-- Whether a report is of the sort that a target asks for: the same kind and, if the target has
a phase, the same phase. -/
def suits (r target : Report) : Bool :=
  (target.phase.isNone || target.phase = r.phase) && r.kind = target.kind

end Report

/-- A fault: a plain text, a report, or a report with the error behind it. -/
inductive Error where
  | plain (text : String)
  | report (r : Report)
  | caused (r : Report) (cause : Error)
  deriving DecidableEq, Repr

instance : Inhabited Error := ⟨.plain ""⟩

namespace Error

/-- The text of an error, with the texts of its causes. -/
def message : Error → String
  | plain text => text
  | report r => r.message
  | caused r cause => r.message ++ " (caused by: " ++ cause.message ++ ")"

/-- The report at the head of an error. -/
def report? : Error → Option Report
  | plain _ => none
  | report r => some r
  | caused r _ => some r

/-- The error behind an error. -/
def cause? : Error → Option Error
  | caused _ cause => some cause
  | _ => none

/-- The same error without what lies behind it. -/
def withoutCause : Error → Error
  | caused r _ => report r
  | e => e

/-- A report on top of an error, if there is one. -/
def because (r : Report) : Option Error → Error
  | none => report r
  | some cause => caused r cause

/-- Whether an error or one of its causes is of the sort that a target asks for. A plain text asks
for nothing but itself, so no other error is of its sort. -/
def isSort (e target : Error) : Bool :=
  match target.report? with
  | none => false
  | some wanted => go wanted e
where
  /-- Walks the causes. -/
  go (wanted : Report) : Error → Bool
    | plain _ => false
    | report r => r.suits wanted
    | caused r cause => r.suits wanted || go wanted cause

/-- An error of one phase and kind with a detail. -/
def of (phase : Phase) (kind : ErrorKind) (detail : String) : Error :=
  report { phase := some phase, kind, detail }

/-- A descriptor that goes wrong at a byte offset. -/
def invalidDescriptor (descriptor : String) (offset : Int) : Error :=
  report {
    phase := some .parse
    kind := .invalidData
    detail := "malformed descriptor " ++ Text.quote descriptor ++ " at offset " ++ toString offset
    value := some descriptor }

/-- A value beyond a limit. -/
def overflow (phase : Option Phase) (path : List String) (value limit : String) : Error :=
  report {
    phase, path
    kind := .overflow
    detail := "value " ++ value ++ " exceeds " ++ limit
    value := some value }

/-- A name that stands for nothing. -/
def notFound (phase : Option Phase) (what name : String) : Error :=
  report { phase, kind := .notFound, detail := what ++ " " ++ Text.quote name ++ " not found" }

/-- A recipe that cannot be loaded. -/
def load (detail : String) (cause : Option Error) : Error :=
  because { phase := some .load, kind := .invalidData, detail } cause

/-- A text that does not follow its format. -/
def parseFailed (what : String) (cause : Option Error) : Error :=
  because { phase := some .parse, kind := .invalidData, detail := "parse " ++ what } cause

/-- The same error, placed further out. A plain text becomes the cause of a loading error. -/
def within (path : List String) : Error → Error
  | report r => report { r with path := path ++ r.path }
  | caused r cause => caused { r with path := path ++ r.path } cause
  | plain text => load (".".intercalate path) (some (plain text))

end Error

/-- A computation in sequence succeeds only if both of its parts do. -/
theorem exists_ok_of_bind {ε α β : Type} {x : Except ε α} {f : α → Except ε β} {b : β}
    (h : x >>= f = .ok b) : ∃ a, x = .ok a ∧ f a = .ok b := by
  cases x with
  | error e => cases h
  | ok a => exact ⟨a, rfl, h⟩

end OperandStack
