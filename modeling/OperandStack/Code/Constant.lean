import OperandStack.Number.Layout
import OperandStack.Text.Quoted

/-!
# Loadable constants

Literals that are loaded from the constant pool. Floating-point values are bit
patterns, so that signed zeros and the patterns that are no number stay apart.

Only canonical literals are represented: a literal has the data of its sort and
nothing else, a number in the width of its sort or a text. So two literals are equal
exactly if they denote the same pool entry. A record of tag, bits and text could also
hold a text beside a number, or bits beyond the width, and such records would differ
without denoting different entries.
-/

namespace OperandStack

/-- A literal loaded from the constant pool. -/
inductive Constant where
  | int (value : Int32)
  | long (value : Int64)
  | float (bits : UInt32)
  | double (bits : UInt64)
  | string (text : String)
  /-- The class literal of an internal name. -/
  | classOf (name : String)
  /-- A text that was never said to be a literal of any sort. -/
  | untagged (text : String)
  deriving DecidableEq, Repr, Hashable

namespace Constant

/-- Whether a literal takes two slots of the stack and two indices of the pool. -/
def isWide : Constant → Bool
  | long _ => true
  | double _ => true
  | _ => false

/-- The number of the sort of a literal. -/
def tag : Constant → Nat
  | untagged _ => 0
  | int _ => 1
  | long _ => 2
  | float _ => 3
  | double _ => 4
  | string _ => 5
  | classOf _ => 6

/-- A literal as listings show it. -/
def text : Constant → String
  | int value => toString value.toInt
  | long value => toString value.toInt ++ "L"
  | float bits => Number.singleText bits ++ "f"
  | double bits => Number.doubleText bits ++ "d"
  | string text => Text.quote text
  | classOf name => name ++ ".class"
  | untagged _ => "?"

end Constant

end OperandStack
