import OperandStack.Text.Hex

/-!
# Opcodes

One-byte instruction codes and their mnemonics. The compact local accesses are
laid out in groups of four: int, long, float, double, reference.
-/

namespace OperandStack

/-- An instruction code. -/
structure Opcode where
  /-- The byte that stands for the instruction in a code array. -/
  byte : UInt8
  deriving DecidableEq, Repr

namespace Opcode

def aconstNull : Opcode := ⟨0x01⟩

/-- The first of the seven small int constants, for minus one. -/
def iconstM1 : Opcode := ⟨0x02⟩

def lconst0 : Opcode := ⟨0x09⟩
def lconst1 : Opcode := ⟨0x0a⟩
def fconst0 : Opcode := ⟨0x0b⟩
def fconst1 : Opcode := ⟨0x0c⟩
def fconst2 : Opcode := ⟨0x0d⟩
def dconst0 : Opcode := ⟨0x0e⟩
def dconst1 : Opcode := ⟨0x0f⟩
def bipush : Opcode := ⟨0x10⟩
def sipush : Opcode := ⟨0x11⟩
def ldc : Opcode := ⟨0x12⟩
def ldcW : Opcode := ⟨0x13⟩
def ldc2W : Opcode := ⟨0x14⟩

def iload : Opcode := ⟨0x15⟩
def lload : Opcode := ⟨0x16⟩
def fload : Opcode := ⟨0x17⟩
def dload : Opcode := ⟨0x18⟩
def aload : Opcode := ⟨0x19⟩
def iload0 : Opcode := ⟨0x1a⟩
def lload0 : Opcode := ⟨0x1e⟩
def fload0 : Opcode := ⟨0x22⟩
def dload0 : Opcode := ⟨0x26⟩
def aload0 : Opcode := ⟨0x2a⟩
def iaload : Opcode := ⟨0x2e⟩
def laload : Opcode := ⟨0x2f⟩
def faload : Opcode := ⟨0x30⟩
def daload : Opcode := ⟨0x31⟩
def aaload : Opcode := ⟨0x32⟩
def baload : Opcode := ⟨0x33⟩
def caload : Opcode := ⟨0x34⟩
def saload : Opcode := ⟨0x35⟩

def istore : Opcode := ⟨0x36⟩
def lstore : Opcode := ⟨0x37⟩
def fstore : Opcode := ⟨0x38⟩
def dstore : Opcode := ⟨0x39⟩
def astore : Opcode := ⟨0x3a⟩
def istore0 : Opcode := ⟨0x3b⟩
def lstore0 : Opcode := ⟨0x3f⟩
def fstore0 : Opcode := ⟨0x43⟩
def dstore0 : Opcode := ⟨0x47⟩
def astore0 : Opcode := ⟨0x4b⟩
def iastore : Opcode := ⟨0x4f⟩
def lastore : Opcode := ⟨0x50⟩
def fastore : Opcode := ⟨0x51⟩
def dastore : Opcode := ⟨0x52⟩
def aastore : Opcode := ⟨0x53⟩
def bastore : Opcode := ⟨0x54⟩
def castore : Opcode := ⟨0x55⟩
def sastore : Opcode := ⟨0x56⟩

def pop : Opcode := ⟨0x57⟩
def pop2 : Opcode := ⟨0x58⟩
def dup : Opcode := ⟨0x59⟩
def dupX1 : Opcode := ⟨0x5a⟩
def dupX2 : Opcode := ⟨0x5b⟩
def dup2 : Opcode := ⟨0x5c⟩
def dup2X1 : Opcode := ⟨0x5d⟩
def dup2X2 : Opcode := ⟨0x5e⟩

def iinc : Opcode := ⟨0x84⟩
def i2l : Opcode := ⟨0x85⟩
def i2f : Opcode := ⟨0x86⟩
def i2d : Opcode := ⟨0x87⟩
def l2f : Opcode := ⟨0x89⟩
def l2d : Opcode := ⟨0x8a⟩
def f2d : Opcode := ⟨0x8d⟩

def ireturn : Opcode := ⟨0xac⟩
def lreturn : Opcode := ⟨0xad⟩
def freturn : Opcode := ⟨0xae⟩
def dreturn : Opcode := ⟨0xaf⟩
def areturn : Opcode := ⟨0xb0⟩
def vreturn : Opcode := ⟨0xb1⟩
def getstatic : Opcode := ⟨0xb2⟩
def putstatic : Opcode := ⟨0xb3⟩
def getfield : Opcode := ⟨0xb4⟩
def putfield : Opcode := ⟨0xb5⟩
def invokevirtual : Opcode := ⟨0xb6⟩
def invokespecial : Opcode := ⟨0xb7⟩
def invokestatic : Opcode := ⟨0xb8⟩
def invokeinterface : Opcode := ⟨0xb9⟩
def new : Opcode := ⟨0xbb⟩
def newarray : Opcode := ⟨0xbc⟩
def anewarray : Opcode := ⟨0xbd⟩
def arraylength : Opcode := ⟨0xbe⟩
def athrow : Opcode := ⟨0xbf⟩
def checkcast : Opcode := ⟨0xc0⟩
def instanceof : Opcode := ⟨0xc1⟩
def wide : Opcode := ⟨0xc4⟩

/-- The opcode a number of places further on. -/
def plus (op : Opcode) (n : Nat) : Opcode := ⟨op.byte + UInt8.ofNat n⟩

/-- The mnemonics by runs of neighbouring codes, each run after the code of its first member. -/
def mnemonicRuns : List (Nat × List String) := [
  (0x00, ["nop", "aconst_null", "iconst_m1", "iconst_0", "iconst_1", "iconst_2", "iconst_3",
    "iconst_4", "iconst_5", "lconst_0", "lconst_1", "fconst_0", "fconst_1", "fconst_2",
    "dconst_0", "dconst_1", "bipush", "sipush", "ldc", "ldc_w", "ldc2_w"]),
  (0x15, ["iload", "lload", "fload", "dload", "aload",
    "iload_0", "iload_1", "iload_2", "iload_3", "lload_0", "lload_1", "lload_2", "lload_3",
    "fload_0", "fload_1", "fload_2", "fload_3", "dload_0", "dload_1", "dload_2", "dload_3",
    "aload_0", "aload_1", "aload_2", "aload_3",
    "iaload", "laload", "faload", "daload", "aaload", "baload", "caload", "saload"]),
  (0x36, ["istore", "lstore", "fstore", "dstore", "astore",
    "istore_0", "istore_1", "istore_2", "istore_3", "lstore_0", "lstore_1", "lstore_2", "lstore_3",
    "fstore_0", "fstore_1", "fstore_2", "fstore_3", "dstore_0", "dstore_1", "dstore_2", "dstore_3",
    "astore_0", "astore_1", "astore_2", "astore_3",
    "iastore", "lastore", "fastore", "dastore", "aastore", "bastore", "castore", "sastore"]),
  (0x57, ["pop", "pop2", "dup", "dup_x1", "dup_x2", "dup2", "dup2_x1", "dup2_x2", "swap"]),
  (0x84, ["iinc", "i2l", "i2f", "i2d", "l2i", "l2f", "l2d", "f2i", "f2l", "f2d",
    "d2i", "d2l", "d2f", "i2b", "i2c", "i2s"]),
  (0xac, ["ireturn", "lreturn", "freturn", "dreturn", "areturn", "return",
    "getstatic", "putstatic", "getfield", "putfield",
    "invokevirtual", "invokespecial", "invokestatic", "invokeinterface"]),
  (0xbb, ["new", "newarray", "anewarray", "arraylength", "athrow", "checkcast", "instanceof"]),
  (0xc4, ["wide"])]

/-- The mnemonic of an opcode; codes without one are shown by number. -/
def mnemonic (op : Opcode) : String :=
  let n := op.byte.toNat
  let known := mnemonicRuns.findSome? fun (first, names) =>
    if first ≤ n then names[n - first]? else none
  known.getD ("op(0x" ++ Text.hexByte op.byte ++ ")")

/-- A local variable that a compact opcode reads or writes, and the slots of its value. -/
def compactLocal? (op : Opcode) : Option (Nat × Nat) :=
  let n := op.byte.toNat
  let place (offset : Nat) : Nat × Nat :=
    (offset % 4, if offset / 4 = 1 ∨ offset / 4 = 3 then 2 else 1)
  if iload0.byte.toNat ≤ n ∧ n < iload0.byte.toNat + 20 then some (place (n - iload0.byte.toNat))
  else if istore0.byte.toNat ≤ n ∧ n < istore0.byte.toNat + 20 then
    some (place (n - istore0.byte.toNat))
  else none

/-- The slots of the value that an indexed local access moves. -/
def localWidth (op : Opcode) : Nat :=
  if op = lload ∨ op = dload ∨ op = lstore ∨ op = dstore then 2 else 1

end Opcode

end OperandStack
