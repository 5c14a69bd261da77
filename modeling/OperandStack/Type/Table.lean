import OperandStack.Error
import OperandStack.Number.Operations
import OperandStack.Type.Builtin

/-!
# Type tables and descriptors

A type table knows reference types by internal name. It starts with the built-in
types, and a later definition of a name replaces an earlier one for look-ups;
types already described keep what they were declared with. Descriptors and names
are resolved against a table. Offsets in errors count the bytes of the UTF-8 form.
-/

namespace OperandStack

/-- The known reference types, the latest definition first. -/
structure TypeTable where
  /-- The definitions, latest first. -/
  types : List TypeDesc

namespace TypeTable

/-- The table of the built-in types. -/
def builtin : TypeTable := ⟨TypeDesc.builtins.reverse⟩

/-- The table with a type added or replaced. -/
def define (table : TypeTable) (t : TypeDesc) : TypeTable := ⟨t :: table.types⟩

/-- The type defined under an internal name. -/
def lookup? (table : TypeTable) (name : String) : Option TypeDesc :=
  table.types.find? fun t => t.name = name

/-- The latest definition of a name counts. -/
theorem lookup?_define (table : TypeTable) (t : TypeDesc) (name : String) :
    (table.define t).lookup? name = if t.name = name then some t else table.lookup? name := by
  unfold define lookup?
  rw [List.find?_cons]
  by_cases h : t.name = name <;> simp [h]

/-- The type of a descriptor letter. -/
def ofLetter? : Char → Option TypeDesc
  | 'V' => some .void
  | c => (Primitive.ofLetter? c).map .primitive

/-- A letter is that of `void` or of a primitive type. -/
theorem ofLetter?_cases {c : Char} {t : TypeDesc} (h : ofLetter? c = some t) :
    c = 'V' ∧ t = .void ∨ ∃ p : Primitive, c = p.letter ∧ t = .primitive p := by
  unfold ofLetter? at h
  split at h
  · cases h
    exact Or.inl ⟨rfl, rfl⟩
  · obtain ⟨p, hp, rfl⟩ := Option.map_eq_some_iff.mp h
    exact Or.inr ⟨p, Primitive.eq_letter_of_ofLetter? hp, rfl⟩

/-- A type read from the front of a text. -/
structure Parsed where
  /-- The type. -/
  type : TypeDesc
  /-- The byte offset behind it. -/
  offset : Nat
  /-- The text behind it. -/
  rest : List Char

/-- The bytes of a text in UTF-8. -/
def byteLength (cs : List Char) : Nat := (cs.map Char.utf8Size).sum

/-- Reads one type of the descriptor `whole` from the text at a byte offset. -/
def parseType (table : TypeTable) (whole : String) :
    (offset : Nat) → List Char → Except Error Parsed
  | i, [] => .error (.invalidDescriptor whole i)
  | i, '[' :: rest => do
    let component ← parseType table whole (i + 1) rest
    if component.type.isVoid then .error (.invalidDescriptor whole (i + 1))
    else .ok { component with type := .array component.type }
  | i, 'L' :: rest =>
    let name := rest.takeWhile (· ≠ ';')
    match rest.dropWhile (· ≠ ';') with
    | [] => .error (.invalidDescriptor whole i)
    | _ :: after =>
      if name.isEmpty then .error (.invalidDescriptor whole i)
      else match table.lookup? (String.ofList name) with
        | some t => .ok ⟨t, i + byteLength name + 2, after⟩
        | none => .error (.report {
            phase := some .describe
            kind := .notFound
            type := String.ofList name
            detail := "referenced by descriptor " ++ Text.quote whole })
  | i, c :: rest =>
    match ofLetter? c with
    | some t => .ok ⟨t, i + 1, rest⟩
    | none => .error (.invalidDescriptor whole i)

/-- Reading a type uses up some of the text. -/
theorem parseType_rest_length {table : TypeTable} {whole : String} {i : Nat} {cs : List Char}
    {p : Parsed} (h : table.parseType whole i cs = .ok p) : p.rest.length < cs.length := by
  fun_induction parseType table whole i cs generalizing p with
  | case1 => cases h
  | case2 i rest ih =>
    cases hc : table.parseType whole (i + 1) rest with
    | error e => simp [hc, bind, Except.bind] at h
    | ok component =>
      simp only [hc, bind, Except.bind] at h
      split at h
      · cases h
      · cases h
        have shorter := ih hc
        exact Nat.lt_succ_of_lt shorter
  | case3 => cases h
  | case4 => cases h
  | case5 i rest name c after heq =>
    cases h
    have hd := (List.dropWhile_sublist (l := rest) (fun c => decide (c ≠ ';'))).length_le
    rw [heq, List.length_cons] at hd
    simp only [List.length_cons]
    omega
  | case6 => cases h
  | case7 i c rest => cases h; simp
  | case8 => cases h

/-- The type of a field descriptor. -/
def parseField (table : TypeTable) (descriptor : String) : Except Error TypeDesc := do
  let p ← table.parseType descriptor 0 descriptor.toList
  if p.rest.isEmpty then .ok p.type else .error (.invalidDescriptor descriptor p.offset)

/-- The types of a method descriptor. -/
structure Signature where
  /-- The return type. -/
  returns : TypeDesc
  /-- The parameter types in order. -/
  parameters : List TypeDesc

/-- Parameters read from the front of a text. -/
structure ParsedParameters where
  /-- The parameter types in order. -/
  types : List TypeDesc
  /-- The byte offset behind the closing parenthesis. -/
  offset : Nat
  /-- The text behind it. -/
  rest : List Char

/-- Reads parameters up to and with the closing parenthesis. -/
def parseParameters (table : TypeTable) (whole : String) (i : Nat) (cs : List Char) :
    Except Error ParsedParameters :=
  match cs with
  | [] => .error (.invalidDescriptor whole i)
  | ')' :: rest => .ok ⟨[], i + 1, rest⟩
  | c :: rest =>
    match h : table.parseType whole i (c :: rest) with
    | .error e => .error e
    | .ok p =>
      if p.type.isVoid then .error (.invalidDescriptor whole i)
      else
        have := parseType_rest_length h
        match parseParameters table whole p.offset p.rest with
        | .error e => .error e
        | .ok more => .ok { more with types := p.type :: more.types }
termination_by cs.length
decreasing_by exact this

/-- The return and parameter types of a method descriptor. -/
def parseMethod (table : TypeTable) (descriptor : String) : Except Error Signature :=
  match descriptor.toList with
  | '(' :: rest => do
    let parameters ← table.parseParameters descriptor 1 rest
    let returned ← table.parseType descriptor parameters.offset parameters.rest
    if returned.rest.isEmpty then .ok ⟨returned.type, parameters.types⟩
    else .error (.invalidDescriptor descriptor returned.offset)
  | _ => .error (.invalidDescriptor descriptor 0)

/-- An internal name, with slashes for the dots of a package name. -/
def internalName (name : String) : String := name.map fun c => if c = '.' then '/' else c

/-- Resolves a name with dots or slashes. -/
def resolveName (table : TypeTable) (name : String) : Except Error TypeDesc :=
  match table.lookup? (internalName name) with
  | some t => .ok t
  | none => .error (.notFound (some .describe) "type" (internalName name))

/-- Resolves a spelling that has no brackets at its end. A class descriptor that cannot be resolved
is taken for a name. -/
def describeSimple (table : TypeTable) (name : String) : Except Error TypeDesc :=
  match name.toList with
  | [] => .error (.of .describe .invalidInput "empty type name")
  | [c] =>
    match ofLetter? c with
    | some t => .ok t
    | none => if c = '[' then table.parseField name else table.resolveName name
  | '[' :: _ => table.parseField name
  | 'L' :: _ =>
    if name.toList.getLast? = some ';' then
      match table.parseField name with
      | .ok t => .ok t
      | .error _ => table.resolveName name
    else table.resolveName name
  | _ =>
    match name, Primitive.ofKeyword? name with
    | "void", _ => .ok .void
    | _, some p => .ok (.primitive p)
    | _, none => table.resolveName name

/-- Resolves the spelling whose characters are given from the last to the first. -/
def describeReversed (table : TypeTable) : List Char → Except Error TypeDesc
  | ']' :: '[' :: rest => do
    let component ← describeReversed table rest
    if component.isVoid then .error (.of .describe .illegalArgument "array of void")
    else .ok (.array component)
  | cs => table.describeSimple (String.ofList cs.reverse)

/-- Resolves a spelling of a type: a keyword, a name with dots or slashes, either of them followed
by brackets, or a field descriptor. -/
def describe (table : TypeTable) (spelling : String) : Except Error TypeDesc :=
  table.describeReversed spelling.toList.reverse

end TypeTable

end OperandStack
