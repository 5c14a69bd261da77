import OperandStack.InputLine
import OperandStack.Listing
import OperandStack.Text.LowerCase

/-!
# The browser

The browser shows the methods of an assembled type as a list that can be filtered
by name, and the listing of the selected one. It is a state machine: each message
gives the next state, and whether the browser is to be left. The selected method is
looked up without a check where its listing is opened and shown, so both fail where
the selection is out of range.
-/

namespace OperandStack

/-- A key that was pressed. -/
inductive Key where
  | up
  | down
  | enter
  | escape
  | interrupt
  | backspace
  /-- Characters, entered at once. -/
  | typed (text : String)
  deriving DecidableEq, Repr

/-- What the browser shows. -/
inductive BrowserMode where
  /-- The list of methods. -/
  | select
  /-- The list of methods while its filter is edited. -/
  | filter
  /-- The listing of the selected method. -/
  | listing
  deriving DecidableEq, Repr

/-- What happens to the browser. -/
inductive BrowserMessage where
  | resize (width height : Int64)
  | loaded (outcome : Except Error AssembledType)
  | key (k : Key)
  | nothing

/-- A window on lines of text. -/
structure Viewport where
  width : Int64
  height : Int64
  /-- The first line shown. -/
  offset : Nat
  lines : List String
  deriving DecidableEq, Repr

namespace Viewport

/-- The window before any text is shown. -/
def initial : Viewport := ⟨80, 20, 0, [""]⟩

/-- The greatest offset at which no line is missing at the end. -/
def maxOffset (v : Viewport) : Nat := ((v.lines.length : Int) - v.height.toInt).toNat

/-- Shows a text from its first line on. -/
def display (v : Viewport) (text : String) : Viewport :=
  let lines := Text.splitLines (Text.plainLineEnds text.toList)
  { v with offset := 0, lines := lines.map String.ofList }

/-- Moves down, unless the end is shown already. -/
def moveDown (v : Viewport) (count : Nat) : Viewport :=
  if v.maxOffset ≤ v.offset ∨ count = 0 then v
  else { v with offset := min (v.offset + count) v.maxOffset }

/-- Moves up. -/
def moveUp (v : Viewport) (count : Nat) : Viewport :=
  if v.offset = 0 ∨ count = 0 then v
  else { v with offset := min (v.offset - count) v.maxOffset }

/-- Moves by the key pressed: a line, a page, or half a page. -/
def press (v : Viewport) (k : Key) : Viewport :=
  let page := v.height.toInt.toNat
  match k with
  | .up => v.moveUp 1
  | .down => v.moveDown 1
  | .typed "k" => v.moveUp 1
  | .typed "j" => v.moveDown 1
  | .typed "b" => v.moveUp page
  | .typed "pgup" => v.moveUp page
  | .typed "f" => v.moveDown page
  | .typed " " => v.moveDown page
  | .typed "pgdown" => v.moveDown page
  | .typed "u" => v.moveUp (page / 2)
  | .typed "ctrl+u" => v.moveUp (page / 2)
  | .typed "d" => v.moveDown (page / 2)
  | .typed "ctrl+d" => v.moveDown (page / 2)
  | _ => v

end Viewport

/-- The lines in a window, each as wide as the window. Lines that are too wide are wrapped. -/
def Viewport.text (v : Viewport) : String :=
  let width := v.width.toInt.toNat
  let height := v.height.toInt.toNat
  let lines := (v.lines.drop v.offset).take height
  let wrapped := Text.splitLines (Text.wrap width (Text.joinedLines (lines.map String.toList)))
  let missing := List.replicate (height - wrapped.length) []
  String.ofList (Text.joinedLines ((Text.fitLines width (wrapped ++ missing)).take height))

/-- The state of the browser. -/
structure Browser where
  /-- The name of the recipe file. -/
  file : String
  /-- Why the recipe could not be assembled. -/
  failure? : Option Error
  /-- The assembled type. -/
  type? : Option TypeDesc
  methods : List MethodCode
  /-- The methods that pass the filter. -/
  visible : List MethodCode
  /-- The line in which the filter is edited. -/
  input : InputLine
  /-- The index of the selected method among the visible ones. -/
  cursor : Int
  mode : BrowserMode
  window : Viewport

namespace Browser

/-- The browser before the recipe is loaded. -/
def initial (file : String) : Browser :=
  ⟨file, none, none, [], [], {}, 0, .select, .initial⟩

/-- The text of the filter. -/
def filter (b : Browser) : String := b.input.text

/-- The line of the selection, counted from zero. -/
def selected (b : Browser) : Nat := b.cursor.toNat

/-- The selected method. There is none where the cursor is out of range. -/
def current? (b : Browser) : Option MethodCode :=
  if b.cursor < 0 then none else b.visible[b.selected]?

/-- Whether a text occurs in another. -/
def occursIn (pattern : List Char) : List Char → Bool
  | [] => pattern.isEmpty
  | c :: rest => pattern.isPrefixOf (c :: rest) || occursIn pattern rest

/-- Whether a method passes a filter: the filter occurs in its name, whatever the case. -/
def passes (filter : String) (m : MethodCode) : Bool :=
  filter = "" || occursIn (Text.lower filter).toList (Text.lower m.method.name).toList

/-- Filters the methods anew. A cursor behind the last of them goes to the last one, or to the start
if there is none. -/
def refresh (b : Browser) : Browser :=
  let visible := b.methods.filter (passes b.filter)
  let last : Int := visible.length - 1
  { b with visible, cursor := if visible.length ≤ b.cursor then max last 0 else b.cursor }

/-- Takes over what was loaded. -/
def load (b : Browser) : Except Error AssembledType → Browser
  | .error e => { b with failure? := some e }
  | .ok a => refresh { b with type? := some a.plan.type, methods := a.methods }

/-- Edits the filter by a key. -/
def pressInFilter (b : Browser) : Key → Browser × Bool
  | .interrupt => (b, true)
  | .enter => ({ b with mode := .select }, false)
  | .escape => ({ refresh { b with input := {} } with mode := .select }, false)
  | .backspace => (refresh { b with input := b.input.edit .eraseLeft }, false)
  | .typed s => (refresh { b with input := b.input.edit (.ofTyped s) }, false)
  | _ => (refresh b, false)

/-- Shows the listing of the selected method, which is looked up without a check. -/
def showSelected? (b : Browser) : Option Browser := do
  let m ← b.current?
  return { b with window := b.window.display (m.bodyText true true), mode := .listing }

/-- Moves the cursor up, unless it stands on the first line. -/
def moveUp (b : Browser) : Browser :=
  if 0 < b.cursor then { b with cursor := b.cursor - 1 } else b

/-- Moves the cursor down, unless it stands on the last line. -/
def moveDown (b : Browser) : Browser :=
  if b.cursor < b.visible.length - 1 then { b with cursor := b.cursor + 1 } else b

/-- Acts on a key in the list of methods. -/
def pressInList? (b : Browser) : Key → Option Browser
  | .up => some b.moveUp
  | .typed "k" => some b.moveUp
  | .down => some b.moveDown
  | .typed "j" => some b.moveDown
  | .typed "/" => some { b with mode := .filter }
  | .enter => if b.visible.isEmpty then some b else b.showSelected?
  | _ => some b

/-- Acts on a key in a listing. -/
def pressInListing (b : Browser) : Key → Browser
  | .escape => { b with mode := .select }
  | k => { b with window := b.window.press k }

/-- Acts on a key. -/
def press? (b : Browser) (k : Key) : Option (Browser × Bool) :=
  match b.mode with
  | .filter => some (b.pressInFilter k)
  | .select =>
    if k = .interrupt ∨ k = .typed "q" then some (b, true)
    else (b.pressInList? k).map fun next => (next, false)
  | .listing =>
    if k = .interrupt ∨ k = .typed "q" then some (b, true) else some (b.pressInListing k, false)

/-- The next state, and whether the browser is to be left. There is none if a look-up fails. -/
def step? (b : Browser) : BrowserMessage → Option (Browser × Bool)
  | .resize width height =>
    let inner := height - 6
    let height := if inner < 1 then 1 else inner
    some ({ b with window := { b.window with width, height } }, false)
  | .loaded outcome => some (b.load outcome, false)
  | .key k => b.press? k
  | .nothing => some (b, false)

/-- The next state of a browser whose look-ups succeed; another one stays as it is. -/
def step (b : Browser) (message : BrowserMessage) : Browser × Bool :=
  (b.step? message).getD (b, false)

/-- The line of the filter. An empty one says what belongs there. -/
def filterLine (b : Browser) : String :=
  let text :=
    if b.filter = "" then
      let hint := "method name".toList
      hint ++ List.replicate (InputLine.windowCells + 1 - hint.length) ' '
    else b.input.shown
  String.ofList ('/' :: text)

/-- The lines of the list of methods; the selected one is marked. -/
def listText (b : Browser) : String :=
  if b.visible.isEmpty then "  no matching methods\n"
  else String.join (b.visible.zipIdx.map fun (m, i) =>
    (if i = b.cursor then Text.block ("> " ++ m.title) else "  " ++ m.heading true) ++ "\n")

/-- The text of an error, with all lines of one width. -/
def errorText (e : Error) : String :=
  Text.block ("Error: " ++ e.message ++ "\n\nPress q to quit.")

/-- What the browser shows below the title. The method of a listing is looked up without a check. -/
def content? (b : Browser) : Option String :=
  match b.mode with
  | .listing => do
    let m ← b.current?
    return m.heading true ++ "\n\n" ++ b.window.text ++ "\n↑/↓ scroll • esc back • q quit"
  | .filter => some (b.filterLine ++ "\n\n" ++ b.listText ++ "\nenter apply • esc clear")
  | .select =>
    some ((if b.filter = "" then "" else b.filterLine ++ "\n\n") ++ b.listText ++
      "\n↑/↓ select • / filter • enter show • q quit")

/-- All that the browser shows. There is nothing to show if a look-up fails. -/
def view? (b : Browser) : Option String :=
  match b.failure?, b.type? with
  | some e, _ => some (errorText e)
  | none, none => some "Assembling recipe..."
  | none, some type => do
    let content ← b.content?
    return label true "Stack Assembler" ++ " " ++ Text.block type.text ++ " " ++ b.file ++ "\n\n" ++
      content

/-- What a browser shows whose look-ups succeed; another one shows nothing. -/
def view (b : Browser) : String := b.view?.getD ""

end Browser

end OperandStack
