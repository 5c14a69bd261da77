import OperandStack.Toml.Scalar

/-!
# Statements

A document is a list of statements, one a line: a table header, a header of an
array of tables, or a key with a value. Arrays and inline tables may span lines, and
their last member may be followed by a comma.
-/

namespace OperandStack.Toml

/-- A value as written. -/
inductive Written where
  | scalar (v : Value)
  | array (items : List Written)
  /-- An inline table: dotted keys with values. -/
  | inlineTable (pairs : List (List String × Written))

instance : Inhabited Written := ⟨.array []⟩

/-- One statement. -/
inductive Statement where
  /-- Opens a table. -/
  | openTable (key : List String)
  /-- Opens the next table of an array. -/
  | openItem (key : List String)
  /-- Gives a key of the open table a value. -/
  | assign (key : List String) (value : Written)

/-- A text without blanks at its front. -/
def skipBlanks (cs : List Char) : List Char := cs.dropWhile isBlank

/-- A text without blanks, line ends and comments at its front. -/
def skipLines : (inComment : Bool) → List Char → List Char
  | _, [] => []
  | true, c :: rest => skipLines (c ≠ '\n') rest
  | false, c :: rest =>
    if c = '#' then skipLines true rest
    else if isBlank c || isLineEnd c then skipLines false rest
    else c :: rest

/-- One part of a key. -/
def readKeyPart (cs : List Char) : Option (String × List Char) :=
  match cs with
  | '"' :: rest => do
    let (inside, rest) ← spanQuoted rest
    return (String.ofList (← unescape inside), rest)
  | '\'' :: rest => do
    let (inside, rest) ← spanLiteral rest
    return (String.ofList inside, rest)
  | cs =>
    let name := cs.takeWhile isBareChar
    if name.isEmpty then none else some (String.ofList name, cs.dropWhile isBareChar)

/-- A dotted key at the front of a text, with blanks around each part. -/
def readKey (fuel : Nat) (cs : List Char) : Option (List String × List Char) :=
  match fuel with
  | 0 => none
  | fuel + 1 => do
    let (part, rest) ← readKeyPart (skipBlanks cs)
    match skipBlanks rest with
    | '.' :: rest =>
      let (parts, rest) ← readKey fuel rest
      return (part :: parts, rest)
    | rest => return ([part], rest)

mutual

/-- A value at the front of a text. -/
def readValue (fuel : Nat) (cs : List Char) : Option (Written × List Char) :=
  match fuel with
  | 0 => none
  | fuel + 1 =>
    match skipBlanks cs with
    | '[' :: rest => do
      let (items, rest) ← readItems fuel rest
      return (.array items, rest)
    | '\x7b' :: rest => do
      let (pairs, rest) ← readPairs fuel rest
      return (.inlineTable pairs, rest)
    | cs => do
      let (v, rest) ← readScalar cs
      return (.scalar v, rest)

/-- The items of an array up to its closing bracket. The last one may be followed by a comma. -/
def readItems (fuel : Nat) (cs : List Char) : Option (List Written × List Char) :=
  match fuel with
  | 0 => none
  | fuel + 1 =>
    match skipLines false cs with
    | ']' :: rest => some ([], rest)
    | cs => do
      let (item, rest) ← readValue fuel cs
      match skipLines false rest with
      | ']' :: rest => return ([item], rest)
      | ',' :: rest =>
        let (items, rest) ← readItems fuel rest
        return (item :: items, rest)
      | _ => none

/-- The pairs of an inline table up to its closing brace. The last one may be followed by a
comma. -/
def readPairs (fuel : Nat) (cs : List Char) : Option (List (List String × Written) × List Char) :=
  match fuel with
  | 0 => none
  | fuel + 1 =>
    match skipLines false cs with
    | '\x7d' :: rest => some ([], rest)
    | cs => do
      let (key, rest) ← readKey fuel cs
      let rest ← readChar '=' rest
      let (v, rest) ← readValue fuel rest
      match skipLines false rest with
      | '\x7d' :: rest => return ([(key, v)], rest)
      | ',' :: rest =>
        let (pairs, rest) ← readPairs fuel rest
        return ((key, v) :: pairs, rest)
      | _ => none

end

/-- The text behind the end of a statement: blanks and a comment may come before the line end. -/
def endStatement (cs : List Char) : Option (List Char) :=
  match skipBlanks cs with
  | [] => some []
  | '#' :: rest => some (skipLines true rest)
  | c :: rest => if isLineEnd c then some rest else none

/-- One statement at the front of a text. -/
def readStatement (fuel : Nat) (cs : List Char) : Option (Statement × List Char) :=
  match cs with
  | '[' :: '[' :: rest => do
    let (key, rest) ← readKey fuel rest
    let rest ← readChar ']' rest
    let rest ← readChar ']' rest
    return (.openItem key, rest)
  | '[' :: rest => do
    let (key, rest) ← readKey fuel rest
    let rest ← readChar ']' rest
    return (.openTable key, rest)
  | cs => do
    let (key, rest) ← readKey fuel cs
    let rest ← readChar '=' rest
    let (v, rest) ← readValue fuel rest
    return (.assign key v, rest)

/-- The statements of a text. Every reader takes a character at least at every second step, so
twice as much `fuel` as characters is enough, also for what is inside a statement. -/
def readStatements (fuel : Nat) (cs : List Char) : Option (List Statement) :=
  match fuel with
  | 0 => none
  | fuel + 1 =>
    match skipLines false cs with
    | [] => some []
    | cs => do
      let (statement, rest) ← readStatement fuel cs
      let rest ← endStatement rest
      return statement :: (← readStatements fuel rest)

/-- Whether every character may stand in a document: no control but the tab and line ends, and a
carriage return only before a line feed. -/
def isClean : List Char → Bool
  | [] => true
  | '\r' :: '\n' :: rest => isClean rest
  | c :: rest =>
    (c = '\t' || c = '\n' || (0x20 ≤ c.toNat && c.toNat ≠ 0x7f)) && isClean rest

/-- The statements of a document. A byte order mark at the start is skipped. -/
def statements? (document : String) : Option (List Statement) :=
  let cs := match document.toList with
    | '\ufeff' :: rest => rest
    | cs => cs
  if isClean cs then readStatements (2 * cs.length + 2) cs else none

end OperandStack.Toml
