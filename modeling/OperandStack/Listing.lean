import OperandStack.Recipe.Plan
import OperandStack.Text.Block
import OperandStack.Text.Hex

/-!
# Listings

The text in which assembled methods are shown: a heading for each method, its
numbered instructions, and the bytes of its code on request. A styled listing shows
names, descriptors and instructions as blocks.
-/

namespace OperandStack

/-- A text as a listing shows it. -/
def shown (styled : Bool) (s : String) : String := if styled then Text.block s else s

namespace MethodCode

/-- The name and descriptor of a method. -/
def title (m : MethodCode) : String := m.method.name ++ m.method.descriptor

/-- The line above the instructions of a method. -/
def heading (m : MethodCode) (styled : Bool) : String :=
  shown styled m.method.name ++ shown styled m.method.descriptor ++
    "  stack=" ++ toString m.frame.maxStack.toInt ++
    " locals=" ++ toString m.frame.maxLocals.toInt

/-- The instructions of a method and, if there is a code array and it is to be shown, its bytes. -/
def bodyText (m : MethodCode) (styled showCode : Bool) : String :=
  let code :=
    if showCode && m.pool?.isSome then "  code: " ++ Text.spacedHexBytes m.code.toList ++ "\n"
    else ""
  Recording.numbered "  " 3 (m.recording.listing.map (shown styled)) ++ code

end MethodCode

/-- A label with the blanks that a styled label has on each side. -/
def label (styled : Bool) (s : String) : String := if styled then " " ++ s ++ " " else s

/-- The listing of an assembled type. -/
def AssembledType.listing (a : AssembledType) (styled showCode : Bool) : String :=
  label styled "Type" ++ " " ++ a.plan.type.text ++ "\n" ++
    String.join (a.methods.map fun m =>
      "\n" ++ m.heading styled ++ "\n" ++ m.bodyText styled showCode)

end OperandStack
