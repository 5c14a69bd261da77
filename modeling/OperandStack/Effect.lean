/-!
# Stack effects

A value takes zero, one or two slots of the operand stack. The effect of a piece
of code is the net change of the depth and the peak, the largest rise over the
starting depth on the way. Both are 64-bit numbers that wrap around.
-/

namespace OperandStack

/-- A signed number with its sign always shown. -/
def signedText (n : Int) : String := if 0 ≤ n then "+" ++ toString n else toString n

/-- The effect of a piece of code on the depth of the operand stack. -/
structure StackEffect where
  /-- The change of the depth once the code has run. -/
  net : Int64
  /-- The largest rise over the starting depth. -/
  peak : Int64
  deriving DecidableEq, Repr

namespace StackEffect

/-- The effect of no code at all. -/
def zero : StackEffect := ⟨0, 0⟩

/-- The effect of two pieces of code in turn. The second starts at the depth the first one leaves.
-/
def followedBy (first second : StackEffect) : StackEffect :=
  ⟨first.net + second.net, max first.peak (first.net + second.peak)⟩

/-- The text of an effect. -/
def text (e : StackEffect) : String :=
  "(net " ++ signedText e.net.toInt ++ ", max " ++ toString e.peak.toInt ++ ")"

/-- An effect that never rises above the greater of its start and its end. -/
def ofNet (net : Int64) : StackEffect := ⟨net, max 0 net⟩

end StackEffect

/-- The number of slots that a value takes. -/
structure ValueSize where
  /-- The slots. -/
  slots : UInt8
  deriving DecidableEq, Repr

namespace ValueSize

/-- The size of no value. -/
def zero : ValueSize := ⟨0⟩

/-- The size of all values except longs and doubles. -/
def single : ValueSize := ⟨1⟩

/-- The size of longs and doubles. -/
def double : ValueSize := ⟨2⟩

/-- The name of a size. -/
def name (s : ValueSize) : String :=
  if s = zero then "zero"
  else if s = single then "single"
  else if s = double then "double"
  else "size(" ++ toString s.slots.toNat ++ ")"

/-- The slots as a change of depth. -/
def depth (s : ValueSize) : Int64 := Int64.ofNat s.slots.toNat

/-- The effect of pushing a value. -/
def pushed (s : ValueSize) : StackEffect := ⟨s.depth, s.depth⟩

/-- The effect of popping a value. -/
def popped (s : ValueSize) : StackEffect := ⟨-s.depth, 0⟩

/-- The larger of two sizes. -/
def larger (s t : ValueSize) : ValueSize := if s.slots < t.slots then t else s

end ValueSize

end OperandStack
