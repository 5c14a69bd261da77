import OperandStack.Cbor.Reader
import OperandStack.Frame

/-!
# Bundles

The assembled methods of a type as records, and the binary form of such a bundle:
maps with small numbers for keys. Empty code and empty lists are left out of a
record. Whatever a bundle does not say is empty or zero. How the items of a bundle
become bytes is up to a format; bundles are stored in the canonical one.
-/

namespace OperandStack

open Cbor (Item Format)

/-- What is kept of an assembled method. -/
structure MethodRecord where
  owner : String := ""
  name : String := ""
  descriptor : String := ""
  modifiers : UInt16 := 0
  maxStack : Int64 := 0
  maxLocals : Int64 := 0
  code : List UInt8 := []
  /-- The instructions, one line each. -/
  listing : List String := []
  /-- The literals in the order of their first use. -/
  constants : List String := []
  deriving DecidableEq, Repr

/-- The record of an assembled method. -/
def MethodCode.record (m : MethodCode) : MethodRecord where
  owner := m.method.owner.name
  name := m.method.name
  descriptor := m.method.descriptor
  modifiers := m.method.modifiers.flags
  maxStack := m.frame.maxStack
  maxLocals := m.frame.maxLocals
  code := m.code.toList
  listing := m.recording.listing
  constants := m.recording.constants.toList.map Constant.text

/-- The records of a type. -/
structure Bundle where
  /-- The internal name of the type. -/
  type : String := ""
  /-- The records, if the bundle has a list of them at all. -/
  methods : Option (List MethodRecord) := none
  deriving DecidableEq, Repr

/-- The bundle of assembled methods. -/
def Bundle.ofMethods (type : String) (methods : List MethodCode) : Bundle :=
  ⟨type, some (methods.map MethodCode.record)⟩

/-- A pair of a map under a small number. -/
def numbered (key : Nat) (value : Item) : Item × Item := (.unsigned key, value)

/-- A pair under a small number unless the list it stands for is empty. -/
def unlessEmpty {α : Type} (key : Nat) (xs : List α) (value : Item) : List (Item × Item) :=
  if xs.isEmpty then [] else [numbered key value]

/-- The item of a list of texts. -/
def textItems (texts : List String) : Item := .array (texts.map .text)

/-- The item of a record. -/
def MethodRecord.toItem (r : MethodRecord) : Item :=
  .map ([
    numbered 1 (.text r.owner), numbered 2 (.text r.name), numbered 3 (.text r.descriptor),
    numbered 4 (.unsigned r.modifiers.toNat), numbered 5 (.ofInt r.maxStack.toInt),
    numbered 6 (.ofInt r.maxLocals.toInt)] ++
    unlessEmpty 7 r.code (.bytes r.code) ++
    unlessEmpty 8 r.listing (textItems r.listing) ++
    unlessEmpty 9 r.constants (textItems r.constants))

namespace Bundle

/-- The item of a bundle. -/
def toItem (b : Bundle) : Item :=
  let methods := match b.methods with
    | some records => .array (records.map MethodRecord.toItem)
    | none => .null
  .map [numbered 1 (.text b.type), numbered 2 methods]

/-- The binary form of a bundle in a format. -/
def encodeIn (format : Format) (b : Bundle) : List UInt8 := format.encode b.toItem

/-- The binary form in which a bundle is stored. -/
def encode (b : Bundle) : List UInt8 := b.encodeIn .canonical

end Bundle

namespace Cbor.Item

/-- Whether an item may be the content of a tag with a meaning of its own: a date text, a number of
seconds, and the bytes of a great number. -/
def suitsTag (tag : Nat) (content : Item) : Bool :=
  match tag, content with
  | 0, text _ => true
  | 0, garbledText => true
  | 0, _ => false
  | 1, unsigned _ => true
  | 1, negative _ => true
  | 1, float => true
  | 1, _ => false
  | 2, bytes _ => true
  | 2, _ => false
  | 3, bytes _ => true
  | 3, _ => false
  | _, _ => true

/-- An item without its tags; only the tags of great numbers are kept. -/
def untagged? : Item → Option Item
  | tagged tag content =>
    if !suitsTag tag content then none
    else if tag = 2 ∨ tag = 3 then some (tagged tag content)
    else content.untagged?
  | item => some item

/-- Whether an item without tags stands for nothing at all. -/
def isNull : Item → Bool
  | simple n => n = 22 || n = 23
  | _ => false

/-- The number of an item without tags; zero if it stands for nothing at all. -/
def plainInt? : Item → Option Int
  | unsigned n => some n
  | negative n => some (-1 - n)
  | simple n => if n = 22 ∨ n = 23 then some 0 else if n = 20 ∨ n = 21 then none else some n
  | tagged 2 (bytes data) => some (bigEndianValue data)
  | tagged 3 (bytes data) => some (-1 - bigEndianValue data)
  | _ => none

/-- The number of an item, if it lies in a range. -/
def int? (low high : Int) (item : Item) : Option Int := do
  let i ← (← item.untagged?).plainInt?
  if low ≤ i ∧ i ≤ high then some i else none

/-- The text of an item; empty if it stands for nothing at all. -/
def text? (item : Item) : Option String := do
  match ← item.untagged? with
  | text s => some s
  | other => if other.isNull then some "" else none

/-- The items of an array; none if it stands for nothing at all. -/
def items? (item : Item) : Option (Option (List Item)) := do
  match ← item.untagged? with
  | array items => some (some items)
  | other => if other.isNull then some none else none

/-- The texts of an array. -/
def texts? (item : Item) : Option (List String) := do
  ((← item.items?).getD []).mapM text?

/-- The bytes of a byte string or of an array of small numbers. -/
def bytes? (item : Item) : Option (List UInt8) := do
  match ← item.untagged? with
  | bytes data => some data
  | tagged _ (bytes data) => some data
  | array items => items.mapM fun i => (i.int? 0 255).map fun n => UInt8.ofNat n.toNat
  | other => if other.isNull then some [] else none

/-- Whether an item may be the key of a field, known or not. -/
def isKey : Item → Bool
  | unsigned _ => true
  | negative n => n < 2 ^ 63
  | text _ => true
  | _ => false

/-- Whether a key is a number, or its digits. -/
def isKeyOf (key : Nat) : Item → Bool
  | unsigned n => n = key
  | text s => s = toString key
  | _ => false

/-- The fields of a map; none at all if it stands for nothing. Every key has to be a number or a
text. -/
def fields? (item : Item) : Option (List (Item × Item)) := do
  match ← item.untagged? with
  | map pairs => if pairs.all fun (key, _) => key.isKey then some pairs else none
  | other => if other.isNull then some [] else none

/-- Reads the first field under a key; the default if there is none. -/
def field? {α : Type} (fields : List (Item × Item)) (key : Nat) (fallback : α)
    (read : Item → Option α) : Option α :=
  match fields.find? fun (k, _) => k.isKeyOf key with
  | some (_, value) => read value
  | none => some fallback

end Cbor.Item

open Cbor.Item (field?)

/-- A number of 64 bits. -/
def wordOfItem? (item : Item) : Option Int64 :=
  (item.int? (-9223372036854775808) 9223372036854775807).map Int64.ofInt

/-- The record of an item. -/
def MethodRecord.ofItem? (item : Item) : Option MethodRecord := do
  let fields ← item.fields?
  return {
    owner := ← field? fields 1 "" Item.text?
    name := ← field? fields 2 "" Item.text?
    descriptor := ← field? fields 3 "" Item.text?
    modifiers := ← field? fields 4 0 fun i => (i.int? 0 65535).map fun n => UInt16.ofNat n.toNat
    maxStack := ← field? fields 5 0 wordOfItem?
    maxLocals := ← field? fields 6 0 wordOfItem?
    code := ← field? fields 7 [] Item.bytes?
    listing := ← field? fields 8 [] Item.texts?
    constants := ← field? fields 9 [] Item.texts? }

namespace Bundle

/-- The records of an item, if it is a list at all. -/
def recordsOfItem? (item : Item) : Option (Option (List MethodRecord)) := do
  match ← item.items? with
  | none => some none
  | some items => return some (← items.mapM MethodRecord.ofItem?)

/-- The bundle of an item. -/
def ofItem? (item : Item) : Option Bundle := do
  let fields ← item.fields?
  return ⟨← field? fields 1 "" Item.text?, ← field? fields 2 none recordsOfItem?⟩

/-- The error of bytes that are no bundle. -/
def unreadable : Error := .of .encode .invalidData "unmarshal bundle"

/-- The bundle of a binary form in a format. -/
def decodeIn (format : Format) (bytes : List UInt8) : Except Error Bundle :=
  match (format.decode? bytes).bind ofItem? with
  | some b => .ok b
  | none => .error unreadable

/-- The bundle that is stored in a binary form. -/
def decode (bytes : List UInt8) : Except Error Bundle := decodeIn .canonical bytes

end Bundle

end OperandStack
