import Mathlib.Data.List.Forall2
import Mathlib.Tactic.MkIffOfInductiveProp
import OperandStack.Bundle
import OperandStack.Proofs.Cbor.Canonical

/-!
# Bundles read back from their binary form

A record is read back from its item whichever of its optional fields are left out, so the
item of a bundle determines the bundle. In every lawful format this gives the round trip of
bundles within the limits of the reader, and different bytes for different bundles of any
size; the canonical format is one of them. What the bytes of assembled methods tell is what
their records keep.
-/

namespace OperandStack

open Cbor (Item LawfulFormat textBytes maxElements)
open Cbor.Item (field?)

/-- What each of several items is read as, they are read as together. -/
theorem mapM_map_eq_some {α β : Type} {write : α → β} {read : β → Option α} {xs : List α}
    (h : ∀ x ∈ xs, read (write x) = some x) : (xs.map write).mapM read = some xs := by
  induction xs with
  | nil => rfl
  | cons x xs ih =>
    have hx := h x List.mem_cons_self
    have hxs := ih fun y hy => h y (List.mem_cons_of_mem x hy)
    simp [List.mapM_cons, hx, hxs]

namespace Cbor.Item

@[simp] theorem text?_text (s : String) : (text s).text? = some s := rfl

@[simp] theorem bytes?_bytes (data : List UInt8) : (bytes data).bytes? = some data := rfl

/-- A list of texts is read back. -/
@[simp] theorem texts?_textItems (texts : List String) : (textItems texts).texts? = some texts :=
  mapM_map_eq_some fun s _ => text?_text s

/-- A number in the range asked for is read from its item. -/
theorem int?_ofInt {low high i : Int} (hlow : low ≤ i) (hhigh : i ≤ high) :
    (ofInt i).int? low high = some i := by
  have htags : (ofInt i).untagged? = some (ofInt i) := by
    unfold ofInt
    split <;> rfl
  have hplain : (ofInt i).plainInt? = some i := by
    by_cases hsign : 0 ≤ i
    · rw [ofInt, if_pos hsign, plainInt?, Int.toNat_of_nonneg hsign]
    · rw [ofInt, if_neg hsign, plainInt?, Int.toNat_of_nonneg (by omega)]
      congr 1
      omega
  simp [int?, htags, hplain, hlow, hhigh]

section Fields

variable {α β : Type} {key other : Nat} {fallback : α} {read : Item → Option α}
variable {rest : List (Item × Item)} {value : Item}

/-- A field that comes first is found. -/
@[simp] theorem field?_numbered_self :
    field? (numbered key value :: rest) key fallback read = read value := by
  simp [field?, numbered, isKeyOf]

/-- Fields under other numbers are passed over. -/
@[simp] theorem field?_numbered_of_ne (h : other ≠ key) :
    field? (numbered other value :: rest) key fallback read = field? rest key fallback read := by
  simp [field?, numbered, isKeyOf, h]

/-- A list that is left out if it is empty is read back, as what is left out counts as empty. -/
theorem field?_unlessEmpty_self {xs : List α} {read : Item → Option (List α)}
    (hvalue : read value = some xs) (hrest : field? rest key [] read = some []) :
    field? (unlessEmpty key xs value ++ rest) key [] read = some xs := by
  cases xs with
  | nil => exact hrest
  | cons x xs => exact field?_numbered_self.trans hvalue

/-- Fields under other numbers are passed over, be they left out or not. -/
@[simp] theorem field?_unlessEmpty_of_ne {xs : List β} (h : other ≠ key) :
    field? (unlessEmpty other xs value ++ rest) key fallback read =
      field? rest key fallback read := by
  cases xs with
  | nil => rfl
  | cons x xs => exact field?_numbered_of_ne h

/-- A field that may be left out is there or is not. -/
theorem unlessEmpty_sublist {xs : List β} :
    (unlessEmpty key xs value).Sublist [numbered key value] := by
  cases xs with
  | nil => exact List.nil_sublist _
  | cons x xs => exact List.Sublist.refl _

end Fields

end Cbor.Item

/-- A number of 64 bits is read back. -/
theorem wordOfItem?_ofInt (i : Int64) : wordOfItem? (.ofInt i.toInt) = some i := by
  have hlow : -9223372036854775808 ≤ i.toInt := i.le_toInt
  have hhigh : i.toInt ≤ 9223372036854775807 := i.toInt_le
  rw [wordOfItem?, Cbor.Item.int?_ofInt hlow hhigh, Option.map_some, Int64.ofInt_toInt]

namespace MethodRecord

/-- The fields that a record leaves out where they are empty. -/
def optionalFields (r : MethodRecord) : List (Item × Item) :=
  unlessEmpty 7 r.code (.bytes r.code) ++ (unlessEmpty 8 r.listing (textItems r.listing) ++
    (unlessEmpty 9 r.constants (textItems r.constants) ++ []))

/-- The fields of the item of a record. -/
def fields (r : MethodRecord) : List (Item × Item) :=
  numbered 1 (.text r.owner) :: numbered 2 (.text r.name) :: numbered 3 (.text r.descriptor) ::
    numbered 4 (.unsigned r.modifiers.toNat) :: numbered 5 (.ofInt r.maxStack.toInt) ::
    numbered 6 (.ofInt r.maxLocals.toInt) :: r.optionalFields

/-- The fields of a record that leaves nothing out. -/
def allFields (r : MethodRecord) : List (Item × Item) :=
  [numbered 1 (.text r.owner), numbered 2 (.text r.name), numbered 3 (.text r.descriptor),
    numbered 4 (.unsigned r.modifiers.toNat), numbered 5 (.ofInt r.maxStack.toInt),
    numbered 6 (.ofInt r.maxLocals.toInt), numbered 7 (.bytes r.code),
    numbered 8 (textItems r.listing), numbered 9 (textItems r.constants)]

/-- The item of a record is the map of its fields. -/
theorem toItem_eq (r : MethodRecord) : r.toItem = .map r.fields := by
  simp [toItem, fields, optionalFields]

/-- A record has no fields but the nine there are, in their order. -/
theorem fields_sublist (r : MethodRecord) : r.fields.Sublist r.allFields := by
  have hoptional : r.optionalFields.Sublist [numbered 7 (.bytes r.code),
      numbered 8 (textItems r.listing), numbered 9 (textItems r.constants)] :=
    Item.unlessEmpty_sublist.append
      (Item.unlessEmpty_sublist.append (Item.unlessEmpty_sublist.append (List.Sublist.refl [])))
  exact (List.Sublist.refl [_, _, _, _, _, _]).append hoptional

/-- The fields of a record are found in its item: all keys are small numbers. -/
theorem fields?_toItem (r : MethodRecord) : r.toItem.fields? = some r.fields := by
  have hkeys : (r.fields.all fun pair => pair.1.isKey) = true := by
    have hall : (r.allFields.all fun pair => pair.1.isKey) = true := rfl
    rw [List.all_eq_true] at hall ⊢
    intro pair hpair
    exact hall pair (r.fields_sublist.mem hpair)
  rw [toItem_eq]
  exact if_pos hkeys

/-- Flags of 16 bits are read back. -/
theorem int?_modifiers (flags : UInt16) :
    ((Item.unsigned flags.toNat).int? 0 65535).map (fun n => UInt16.ofNat n.toNat) = some flags := by
  have hflags : (flags.toNat : Int) ≤ 65535 := by
    have := flags.toNat_lt
    omega
  have hread : (Item.unsigned flags.toNat).int? 0 65535 = some (flags.toNat : Int) := by
    exact Cbor.Item.int?_ofInt (Int.natCast_nonneg _) hflags
  rw [hread]
  simp

/-- A record is read back from its item. -/
theorem ofItem?_toItem (r : MethodRecord) : ofItem? r.toItem = some r := by
  have hcode : field? r.optionalFields 7 [] Item.bytes? = some r.code := by
    apply Item.field?_unlessEmpty_self (Item.bytes?_bytes r.code)
    rw [Item.field?_unlessEmpty_of_ne (by decide), Item.field?_unlessEmpty_of_ne (by decide)]
    rfl
  have hlisting : field? r.optionalFields 8 [] Item.texts? = some r.listing := by
    rw [optionalFields, Item.field?_unlessEmpty_of_ne (by decide)]
    apply Item.field?_unlessEmpty_self (Item.texts?_textItems r.listing)
    rw [Item.field?_unlessEmpty_of_ne (by decide)]
    rfl
  have hconstants : field? r.optionalFields 9 [] Item.texts? = some r.constants := by
    rw [optionalFields, Item.field?_unlessEmpty_of_ne (by decide),
      Item.field?_unlessEmpty_of_ne (by decide)]
    exact Item.field?_unlessEmpty_self (Item.texts?_textItems r.constants) rfl
  rw [ofItem?, fields?_toItem]
  simp [fields, wordOfItem?_ofInt, int?_modifiers, hcode, hlisting, hconstants]

end MethodRecord

namespace Bundle

/-- A list of records is read back. -/
theorem recordsOfItem?_array (records : List MethodRecord) :
    recordsOfItem? (.array (records.map MethodRecord.toItem)) = some (some records) := by
  have hrecords : (records.map MethodRecord.toItem).mapM MethodRecord.ofItem? = some records :=
    mapM_map_eq_some fun r _ => r.ofItem?_toItem
  simp [recordsOfItem?, Item.items?, Item.untagged?, hrecords]

/-- A bundle is read back from its item. -/
theorem ofItem?_toItem (b : Bundle) : ofItem? b.toItem = some b := by
  obtain ⟨type, _ | records⟩ := b
  · rfl
  · have hfields : (toItem ⟨type, some records⟩).fields? = some [numbered 1 (.text type),
        numbered 2 (.array (records.map MethodRecord.toItem))] := rfl
    rw [ofItem?, hfields]
    simp [recordsOfItem?_array]

/-- Different bundles have different items. -/
theorem toItem_inj {b c : Bundle} (h : b.toItem = c.toItem) : b = c := by
  have hread := ofItem?_toItem b
  rw [h, ofItem?_toItem] at hread
  exact (Option.some.inj hread).symm

end Bundle

/-- Whether the bytes of a text can be counted in 64 bits. -/
def FitsWord (s : String) : Prop := (textBytes s).length < 2 ^ 64

instance (s : String) : Decidable (FitsWord s) := Nat.decLt _ _

/-- Whether the texts and the code of a record can be counted in 64 bits, and its lists have so many
elements at most. -/
@[mk_iff]
structure MethodRecord.Fits (most : Nat) (r : MethodRecord) : Prop where
  owner : FitsWord r.owner
  name : FitsWord r.name
  descriptor : FitsWord r.descriptor
  code : r.code.length < 2 ^ 64
  listing : r.listing.length ≤ most ∧ ∀ line ∈ r.listing, FitsWord line
  constants : r.constants.length ≤ most ∧ ∀ constant ∈ r.constants, FitsWord constant

instance (most : Nat) (r : MethodRecord) : Decidable (r.Fits most) :=
  decidable_of_iff _ (MethodRecord.fits_iff most r).symm

/-- Whether the texts and the code of a bundle can be counted in 64 bits, and all its lists have so
many elements at most. -/
@[mk_iff]
structure Bundle.Fits (most : Nat) (b : Bundle) : Prop where
  type : FitsWord b.type
  methods : ∀ records ∈ b.methods, records.length ≤ most ∧ ∀ r ∈ records, r.Fits most

instance (most : Nat) (b : Bundle) : Decidable (b.Fits most) :=
  decidable_of_iff _ (Bundle.fits_iff most b).symm

variable {most levels : Nat}

theorem fits_text {s : String} (h : FitsWord s) : (Item.text s).Fits most levels := by
  simp only [Cbor.Item.Fits]
  exact h

/-- A list of texts nests one level. -/
theorem fits_textItems {texts : List String}
    (h : texts.length ≤ most ∧ ∀ s ∈ texts, FitsWord s) :
    (textItems texts).Fits most (levels + 1) := by
  refine ⟨by simpa using h.1, ?_⟩
  intro item hitem
  obtain ⟨s, hs, rfl⟩ := List.mem_map.mp hitem
  exact fits_text (h.2 s hs)

/-- Numbers of 64 bits fit with either sign. -/
theorem fits_word (i : Int64) : (Item.ofInt i.toInt).Fits most levels := by
  have hlow : -9223372036854775808 ≤ i.toInt := i.le_toInt
  have hhigh : i.toInt ≤ 9223372036854775807 := i.toInt_le
  unfold Item.ofInt
  split
  all_goals
    simp only [Cbor.Item.Fits]
    omega

theorem fits_flags (flags : UInt16) : (Item.unsigned flags.toNat).Fits most levels := by
  have hflags := flags.toNat_lt
  simp only [Cbor.Item.Fits]
  omega

/-- A field fits if its value does; its number is small. -/
theorem fits_numbered {key : Nat} {value : Item} (hkey : key < 2 ^ 64)
    (hvalue : value.Fits most levels) :
    (numbered key value).1.Fits most levels ∧ (numbered key value).2.Fits most levels := by
  refine ⟨?_, hvalue⟩
  simp only [numbered, Cbor.Item.Fits]
  exact hkey

/-- The item of a record nests two levels: a map, and lists of texts in it. -/
theorem MethodRecord.Fits.toItem {r : MethodRecord} (h : r.Fits most) (hmost : 9 ≤ most) :
    r.toItem.Fits most (levels + 2) := by
  have hcode : (Item.bytes r.code).Fits most (levels + 1) := by
    simp only [Cbor.Item.Fits]
    exact h.code
  have hall : ∀ pair ∈ r.allFields,
      pair.1.Fits most (levels + 1) ∧ pair.2.Fits most (levels + 1) := by
    simp only [allFields, List.forall_mem_cons]
    exact ⟨fits_numbered (by decide) (fits_text h.owner),
      fits_numbered (by decide) (fits_text h.name),
      fits_numbered (by decide) (fits_text h.descriptor),
      fits_numbered (by decide) (fits_flags r.modifiers),
      fits_numbered (by decide) (fits_word r.maxStack),
      fits_numbered (by decide) (fits_word r.maxLocals),
      fits_numbered (by decide) hcode,
      fits_numbered (by decide) (fits_textItems h.listing),
      fits_numbered (by decide) (fits_textItems h.constants),
      List.forall_mem_nil _⟩
  rw [toItem_eq]
  refine ⟨?_, ?_⟩
  · exact Nat.le_trans r.fields_sublist.length_le hmost
  · intro pair hpair
    exact hall pair (r.fields_sublist.mem hpair)

namespace Bundle

/-- The map of a bundle nests one level more than its list of records. -/
theorem fits_map {type : String} {methods : Item} (htype : FitsWord type)
    (hmethods : methods.Fits most levels) (hmost : 2 ≤ most) :
    (Item.map [numbered 1 (.text type), numbered 2 methods]).Fits most (levels + 1) := by
  refine ⟨hmost, ?_⟩
  simp only [List.forall_mem_cons]
  exact ⟨fits_numbered (by decide) (fits_text htype), fits_numbered (by decide) hmethods,
    List.forall_mem_nil _⟩

/-- The list of records nests one level more than a record. -/
theorem fits_records {records : List MethodRecord} (hlength : records.length ≤ most)
    (h : ∀ r ∈ records, r.Fits most) (hmost : 9 ≤ most) :
    (Item.array (records.map MethodRecord.toItem)).Fits most (levels + 3) := by
  refine ⟨by simpa using hlength, ?_⟩
  intro item hitem
  obtain ⟨r, hr, rfl⟩ := List.mem_map.mp hitem
  exact (h r hr).toItem hmost

/-- The item of a bundle nests four levels: a map, the list of records in it, and the records. -/
theorem Fits.toItem {b : Bundle} (h : b.Fits most) (hmost : 9 ≤ most) :
    b.toItem.Fits most (levels + 4) := by
  obtain ⟨type, _ | records⟩ := b
  · have hnull : Item.null.Fits most (levels + 3) := by
      simp only [Item.null, Cbor.Item.Fits]
      decide
    exact fits_map h.type hnull (by omega)
  · obtain ⟨hlength, hrecords⟩ := h.methods records rfl
    exact fits_map h.type (fits_records hlength hrecords hmost) (by omega)

/-- In a lawful format and within the limits of the reader, a bundle is read back from its binary
form. -/
theorem Fits.decodeIn_encodeIn (format : LawfulFormat) {b : Bundle} (h : b.Fits maxElements) :
    decodeIn format.toFormat (b.encodeIn format.toFormat) = .ok b := by
  have hitem : b.toItem.Fits maxElements Cbor.maxLevels := h.toItem (by decide)
  rw [decodeIn, encodeIn, format.decode?_encode _ hitem, Option.bind_some, ofItem?_toItem]

/-- Two bundles of one binary form in a lawful format are equal. -/
theorem Fits.encodeIn_inj (format : LawfulFormat) {b c : Bundle} (hb : b.Fits most)
    (hc : c.Fits most) (hmost : 9 ≤ most) (hword : most < 2 ^ 64)
    (h : b.encodeIn format.toFormat = c.encodeIn format.toFormat) : b = c := by
  have hbItem : b.toItem.Fits most 4 := hb.toItem hmost
  have hcItem : c.toItem.Fits most 4 := hc.toItem hmost
  exact toItem_inj (format.encode_inj most 4 _ _ hword hbItem hcItem h)

/-- The bundle of any recorded methods is read back from its binary form as it was, as long as the
list of methods and the lists of lines and constants of each method are no longer than the reader
allows. Bundles that differ anywhere have different binary forms, whatever the reader allows: their
texts, codes and lists need only be of sizes that 64 bits hold. -/
theorem decode_encode_ofMethods :
    (∀ (type : String) (methods : List MethodCode), (ofMethods type methods).Fits maxElements →
      decode (ofMethods type methods).encode = .ok (ofMethods type methods)) ∧
    ∀ b c : Bundle, b.Fits (2 ^ 64 - 1) → c.Fits (2 ^ 64 - 1) → b ≠ c → b.encode ≠ c.encode := by
  constructor
  · intro type methods h
    exact h.decodeIn_encodeIn .canonical
  · intro b c hb hc hne heq
    exact hne (hb.encodeIn_inj .canonical hc (by decide) (by decide) heq)

/-- A method with a literal and one without code make a bundle that is read back; in the other order
they make other bytes. -/
theorem decode_encode_ofMethods_classLiteral :
    let owner : TypeDesc := .ofClass "a/Counter" .isPublic (some .object) []
    let kind : MethodCode := ⟨⟨owner, "kind", .isPublic, .void, []⟩, ⟨.zero, 1, 1, 3⟩,
      ⟨#[.load .ldc (.classOf "a/Counter"), .plain .pop, .plain .vreturn], #[.classOf "a/Counter"]⟩,
      #[18, 2, 87, 177], none⟩
    let idle : MethodCode := ⟨⟨owner, "idle", .isPublic, .void, []⟩, .zero, .empty, #[], none⟩
    let b := ofMethods "a/Counter" [kind, idle]
    let c := ofMethods "a/Counter" [idle, kind]
    b.Fits maxElements ∧ decode b.encode = .ok b ∧ b.encode ≠ c.encode := by
  intro owner kind idle b c
  have hb : b.Fits maxElements := by decide
  have hbWord : b.Fits (2 ^ 64 - 1) := by decide
  have hcWord : c.Fits (2 ^ 64 - 1) := by decide
  have hne : b ≠ c := by decide
  exact ⟨hb, decode_encode_ofMethods.1 _ _ hb, decode_encode_ofMethods.2 b c hbWord hcWord hne⟩

end Bundle

/-- Whether two methods agree in all that a record keeps. It drops the types behind the owner's
name and the descriptor, the operands behind the lines of the listing and the literals behind their
texts, the depth at which the frame ends, and the constant pool. -/
@[mk_iff]
structure MethodCode.RecordedAlike (m n : MethodCode) : Prop where
  owner : m.method.owner.name = n.method.owner.name
  name : m.method.name = n.method.name
  descriptor : m.method.descriptor = n.method.descriptor
  modifiers : m.method.modifiers = n.method.modifiers
  maxStack : m.frame.maxStack = n.frame.maxStack
  maxLocals : m.frame.maxLocals = n.frame.maxLocals
  code : m.code = n.code
  listing : m.recording.listing = n.recording.listing
  constants : m.recording.constants.map Constant.text = n.recording.constants.map Constant.text

/-- The records of two methods are equal if and only if the methods agree in what is kept. -/
theorem MethodCode.record_eq_iff {m n : MethodCode} :
    m.record = n.record ↔ m.RecordedAlike n := by
  have hmodifiers : m.method.modifiers.flags = n.method.modifiers.flags ↔
      m.method.modifiers = n.method.modifiers := by
    rw [← Modifiers.mk.injEq]
  have hconstants : m.recording.constants.toList.map Constant.text =
      n.recording.constants.toList.map Constant.text ↔
      m.recording.constants.map Constant.text = n.recording.constants.map Constant.text := by
    rw [← Array.toList_map, ← Array.toList_map, Array.toList_inj]
  rw [record, record, MethodRecord.mk.injEq, Array.toList_inj, hmodifiers, hconstants,
    recordedAlike_iff]

/-- Methods have one binary form in a lawful format if and only if they agree one by one in what
their records keep, and are of types of one name. -/
theorem Bundle.encodeIn_ofMethods_eq_iff (format : LawfulFormat) {type type' : String}
    {methods methods' : List MethodCode} (h : (ofMethods type methods).Fits (2 ^ 64 - 1))
    (h' : (ofMethods type' methods').Fits (2 ^ 64 - 1)) :
    (ofMethods type methods).encodeIn format.toFormat =
        (ofMethods type' methods').encodeIn format.toFormat ↔
      type = type' ∧ List.Forall₂ MethodCode.RecordedAlike methods methods' := by
  have hrecords : methods.map MethodCode.record = methods'.map MethodCode.record ↔
      List.Forall₂ MethodCode.RecordedAlike methods methods' := by
    rw [← List.forall₂_eq_eq_eq, List.forall₂_map_left_iff, List.forall₂_map_right_iff]
    simp only [MethodCode.record_eq_iff]
  have hbundles : ofMethods type methods = ofMethods type' methods' ↔
      type = type' ∧ methods.map MethodCode.record = methods'.map MethodCode.record := by
    simp [ofMethods]
  rw [← hrecords, ← hbundles]
  constructor
  · exact h.encodeIn_inj format h' (by decide) (by decide)
  · intro heq
    rw [heq]

end OperandStack
