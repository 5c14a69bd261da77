import OperandStack.Type.Builtin

/-!
# Assignability

A reference may be assigned to a variable of its own type or of a super type. The
search for a super type goes depth first, super class before interfaces, and
enters each name at most once. Arrays of references vary with their components,
arrays of primitive values do not.
-/

namespace OperandStack.TypeDesc

/-- The outcome of a search through the super types of a type. -/
inductive Search where
  /-- The wanted type was met. -/
  | found
  /-- It was not; the names entered so far are kept. -/
  | missed (visited : List String)
  deriving DecidableEq, Repr

namespace Search

/-- Goes on with a search that has not been successful yet. -/
def orElse (s : Search) (next : List String → Search) : Search :=
  match s with
  | found => found
  | missed visited => next visited

/-- Whether a search was successful. -/
def isFound : Search → Bool
  | found => true
  | missed _ => false

end Search

/-- Enters a type by its name, and then what `next` leads to; a name entered before leads nowhere.
-/
def enter (wanted t : TypeDesc) (visited : List String) (next : List String → Search) : Search :=
  if t.name ∈ visited then .missed visited
  else if wanted.same t then .found
  else next (t.name :: visited)

mutual

/-- Searches a type and everything above it. The super types of an array have no super type but the
root, which is entered first. -/
def search (wanted : TypeDesc) (visited : List String) : TypeDesc → Search
  | void => enter wanted void visited .missed
  | primitive p => enter wanted (primitive p) visited .missed
  | declared name modifiers superClass interfaces =>
    enter wanted (declared name modifiers superClass interfaces) visited fun visited =>
      (searchOption wanted visited superClass).orElse fun visited =>
        searchAll wanted visited interfaces
  | array component =>
    enter wanted (array component) visited fun visited =>
      (enter wanted object visited .missed).orElse fun visited =>
        (enter wanted cloneable visited .missed).orElse fun visited =>
          enter wanted serializable visited .missed

/-- Searches above a super class, if there is one. -/
def searchOption (wanted : TypeDesc) (visited : List String) : Option TypeDesc → Search
  | none => .missed visited
  | some t => search wanted visited t

/-- Searches one type after another. -/
def searchAll (wanted : TypeDesc) (visited : List String) : List TypeDesc → Search
  | [] => .missed visited
  | t :: rest => (search wanted visited t).orElse fun visited => searchAll wanted visited rest

end

/-- Whether a type stands somewhere at or above another one. -/
def isSuperTypeOf (t other : TypeDesc) : Bool := (search t [] other).isFound

/-- Whether a value of type `other` may be assigned to a variable of type `t`. -/
def isAssignableFrom : (t other : TypeDesc) → Bool
  | array component, array other =>
    (array component).same (array other) ||
      if component.isPrimitive || other.isPrimitive then component.same other
      else component.isAssignableFrom other
  | t, array other =>
    t.same (array other) ||
      (t.isReference && (t.same object || t.same cloneable || t.same serializable))
  | t, other =>
    t.same other ||
      (t.isReference && other.isReference && (t.same object || t.isSuperTypeOf other))

/-- Whether a value of a type may be assigned to a variable of another one. -/
def isAssignableTo (t other : TypeDesc) : Bool := other.isAssignableFrom t

end OperandStack.TypeDesc
