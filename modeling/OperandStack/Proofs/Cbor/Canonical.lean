import Mathlib.Tactic.SplitIfs
import OperandStack.Cbor.Reader

/-!
# Canonical encodings

The canonical encoding of an item is read back as that item, whatever bytes follow it,
as long as the item nests no deeper and its lists are no longer than the reader allows.
Without those two bounds the encoding still starts in one way only: bytes that start with
the encodings of two items start with one item. What is left of the bounds are the 64 bits
in which a head holds its number.

Both results go through the head of an item, where the shortest form is chosen. They are
what users of a format may rely on, whoever provides it; `LawfulFormat` collects them.
-/

namespace OperandStack.Cbor

theorem length_bigEndian (width n : Nat) : (bigEndian width n).length = width := by
  induction width generalizing n with
  | zero => rfl
  | succ width ih => simp [bigEndian, ih]

/-- The last digit is the lowest. -/
theorem bigEndianValue_append_singleton (bytes : List UInt8) (b : UInt8) :
    bigEndianValue (bytes ++ [b]) = 256 * bigEndianValue bytes + b.toNat := by
  simp [bigEndianValue]

/-- A number that fits so many bytes is the value of its digits. -/
theorem bigEndianValue_bigEndian {width n : Nat} (h : n < 256 ^ width) :
    bigEndianValue (bigEndian width n) = n := by
  induction width generalizing n with
  | zero =>
    have hzero : n = 0 := by simpa using h
    rw [hzero]
    rfl
  | succ width ih =>
    have hquotient : n / 256 < 256 ^ width := by
      apply Nat.div_lt_of_lt_mul
      rwa [Nat.pow_succ, Nat.mul_comm] at h
    have hlow : (UInt8.ofNat n).toNat = n % 256 := UInt8.toNat_ofNat'
    rw [bigEndian, bigEndianValue_append_singleton, ih hquotient, hlow]
    omega

/-- As many bytes as were put in front are split off again. -/
theorem splitBytes_append (bytes rest : List UInt8) :
    splitBytes bytes.length (bytes ++ rest) = some (bytes, rest) := by
  simp [splitBytes]

/-- The low five bits that tell the form in which a number is written. -/
def headInfo (n : Nat) : Nat :=
  if n < 24 then n
  else if n < 2 ^ 8 then 24
  else if n < 2 ^ 16 then 25
  else if n < 2 ^ 32 then 26
  else 27

/-- No number is written in the form that stands for an indefinite length. -/
theorem headInfo_ne (n : Nat) : headInfo n ≠ 31 := by
  unfold headInfo
  split_ifs <;> omega

/-- The first byte of a head holds three bits of the major type above five of the form. -/
theorem toNat_firstByte {major info : Nat} (hmajor : major < 8) (hinfo : info < 32) :
    (UInt8.ofNat (32 * major + info)).toNat = 32 * major + info := by
  apply UInt8.toNat_ofNat_of_lt'
  change 32 * major + info < 256
  omega

/-- A head whose number stands in the first byte. -/
theorem readHead_narrow {major n : Nat} (hmajor : major < 8) (hn : n < 24) (rest : List UInt8) :
    readHead (UInt8.ofNat (32 * major + n) :: rest) = some (⟨major, n, n⟩, rest) := by
  have hfirst := toNat_firstByte hmajor (show n < 32 by omega)
  have hdiv : (32 * major + n) / 32 = major := by omega
  have hmod : (32 * major + n) % 32 = n := by omega
  simp only [readHead, hfirst, hdiv, hmod, if_pos hn]

/-- A head whose number stands in the bytes behind the first one. -/
theorem readHead_wide {major n : Nat} (info width : Nat) (hmajor : major < 7)
    (hwidth : headWidth? info = some width) (hn : n < 256 ^ width) (rest : List UInt8) :
    readHead (UInt8.ofNat (32 * major + info) :: (bigEndian width n ++ rest)) =
      some (⟨major, info, n⟩, rest) := by
  have hrange : 24 ≤ info ∧ info < 28 := by
    unfold headWidth? at hwidth
    split at hwidth <;> simp_all
  have hfirst := toNat_firstByte (show major < 8 by omega) (show info < 32 by omega)
  have hdiv : (32 * major + info) / 32 = major := by omega
  have hmod : (32 * major + info) % 32 = info := by omega
  have hsplit : splitBytes width (bigEndian width n ++ rest) = some (bigEndian width n, rest) := by
    simpa only [length_bigEndian] using splitBytes_append (bigEndian width n) rest
  have hnarrow : ¬info < 24 := by omega
  have hbreak : info ≠ 31 := by omega
  have hsimple : ¬(major = 7 ∧ info = 24 ∧ n < 32) := by omega
  simp only [readHead, hfirst, hdiv, hmod, if_neg hnarrow, if_neg hbreak, hwidth, hsplit,
    bigEndianValue_bigEndian hn, if_neg hsimple, Option.bind_eq_bind, Option.bind_some]

/-- The number of a head of at most 64 bits is read back, and so is the form that was chosen for
it. Simple values have no form of two bytes below 32. -/
theorem readHead_headBytes {major n : Nat} (hmajor : major < 8) (hn : n < 2 ^ 64)
    (hsimple : major = 7 → n < 24) (rest : List UInt8) :
    readHead (headBytes major n ++ rest) = some (⟨major, headInfo n, n⟩, rest) := by
  simp only [headBytes, headInfo]
  split_ifs with h24 h8 h16 h32
  · exact readHead_narrow hmajor h24 rest
  all_goals have hwide : major < 7 := by omega
  · exact readHead_wide 24 1 hwide rfl h8 rest
  · exact readHead_wide 25 2 hwide rfl h16 rest
  · exact readHead_wide 26 4 hwide rfl h32 rest
  · exact readHead_wide 27 8 hwide rfl hn rest

namespace Item

/-- The bytes of a key and its value. -/
def encodePair (pair : Item × Item) : List UInt8 := pair.1.encode ++ pair.2.encode

mutual

/-- Appending the bytes of an item to others leaves these as they are. -/
theorem toList_encodeOnto (out : Array UInt8) :
    ∀ item : Item, (encodeOnto out item).toList = out.toList ++ item.encode
  | unsigned n | negative n | garbledText | simple n | float => by simp [encode, encodeOnto]
  | bytes data | text s => by simp [encode, encodeOnto]
  | array items => by
    simp [encode, encodeOnto, toList_encodeAllOnto _ items]
  | map pairs => by
    simp [encode, encodeOnto, toList_encodePairsOnto _ pairs]
  | tagged tag content => by
    rw [encode, encodeOnto, encodeOnto, toList_encodeOnto (out ++ headBytes 6 tag) content,
      toList_encodeOnto (#[] ++ headBytes 6 tag) content]
    simp

/-- The items of an array follow each other. -/
theorem toList_encodeAllOnto (out : Array UInt8) :
    ∀ items : List Item, (encodeAllOnto out items).toList = out.toList ++ items.flatMap encode
  | [] => by simp [encodeAllOnto]
  | item :: rest => by
    rw [encodeAllOnto, toList_encodeAllOnto _ rest, toList_encodeOnto _ item]
    simp

/-- The keys and values of a map follow each other. -/
theorem toList_encodePairsOnto (out : Array UInt8) :
    ∀ pairs : List (Item × Item),
      (encodePairsOnto out pairs).toList = out.toList ++ pairs.flatMap encodePair
  | [] => by simp [encodePairsOnto]
  | (key, value) :: rest => by
    rw [encodePairsOnto, toList_encodePairsOnto _ rest, toList_encodeOnto _ value,
      toList_encodeOnto _ key]
    simp [encodePair]

end

/-- The major type of an item. -/
def major : Item → Nat
  | unsigned _ => 0
  | negative _ => 1
  | bytes _ => 2
  | text _ => 3
  | garbledText => 3
  | array _ => 4
  | map _ => 5
  | tagged _ _ => 6
  | simple _ => 7
  | float => 7

/-- The number in the head of an item: the number itself, or a length. -/
def number : Item → Nat
  | unsigned n => n
  | negative n => n
  | bytes data => data.length
  | text s => (textBytes s).length
  | garbledText => 0
  | array items => items.length
  | map pairs => pairs.length
  | tagged tag _ => tag
  | simple n => n
  | float => 0

/-- The bytes of an item behind its head. -/
def body : Item → List UInt8
  | bytes data => data
  | text s => textBytes s
  | array items => items.flatMap encode
  | map pairs => pairs.flatMap encodePair
  | tagged _ content => content.encode
  | _ => []

theorem major_lt (item : Item) : item.major < 8 := by
  cases item <;> simp [major]

/-- Every item but a floating-point number is written as its head and its body. -/
theorem encode_eq_head_append_body {item : Item} (h : item ≠ float) :
    item.encode = headBytes item.major item.number ++ item.body := by
  cases item with
  | float => exact absurd rfl h
  | array items => simp [encode, encodeOnto, toList_encodeAllOnto, major, number, body]
  | map pairs => simp [encode, encodeOnto, toList_encodePairsOnto, major, number, body]
  | tagged tag content =>
    rw [encode, encodeOnto, toList_encodeOnto]
    simp [major, number, body]
  | _ => simp [encode, encodeOnto, major, number, body]

/-- Whether an item is read back from its encoding: it has no tags and no floating-point numbers,
its arrays and maps nest so many levels and have so many elements at most, and its numbers and
lengths have 64 bits. -/
def Fits (most : Nat) : (levels : Nat) → Item → Prop
  | _, unsigned n => n < 2 ^ 64
  | _, negative n => n < 2 ^ 64
  | _, bytes data => data.length < 2 ^ 64
  | _, text s => (textBytes s).length < 2 ^ 64
  | _, simple n => n < 24
  | levels + 1, array items => items.length ≤ most ∧ ∀ item ∈ items, item.Fits most levels
  | levels + 1, map pairs =>
    pairs.length ≤ most ∧ ∀ pair ∈ pairs, pair.1.Fits most levels ∧ pair.2.Fits most levels
  | _, _ => False

/-- Where the elements of arrays and maps can be counted in 64 bits, the head of a fitting item is
read back. -/
theorem Fits.readHead_encode {most levels : Nat} {item : Item} (h : item.Fits most levels)
    (hmost : most < 2 ^ 64) (rest : List UInt8) :
    readHead (item.encode ++ rest) =
      some (⟨item.major, headInfo item.number, item.number⟩, item.body ++ rest) := by
  have hfloat : item ≠ float := by
    rintro rfl
    simp [Fits] at h
  have hnumber : item.number < 2 ^ 64 := by
    cases item <;> cases levels <;> simp only [Fits, number] at h ⊢ <;> omega
  have hsimple : item.major = 7 → item.number < 24 := by
    cases item <;> cases levels <;> simp_all [Fits, number, major]
  rw [encode_eq_head_append_body hfloat, List.append_assoc]
  exact readHead_headBytes item.major_lt hnumber hsimple _

end Item

/-- Whether a thing is read back from what is written for it, whatever follows. -/
def ReadsBack {α : Type} (read : List UInt8 → Option (α × List UInt8)) (write : α → List UInt8)
    (x : α) : Prop :=
  ∀ rest, read (write x ++ rest) = some (x, rest)

/-- A byte string of definite length is a single chunk. -/
theorem readChunks_append {major : Nat} (bytes rest : List UInt8) :
    readChunks ⟨major, headInfo bytes.length, bytes.length⟩ (bytes ++ rest) =
      some ([bytes], rest) := by
  simp [readChunks, headInfo_ne, splitBytes_append]

/-- The bytes of a text spell that text. -/
theorem textOfChunks_singleton (s : String) : textOfChunks [textBytes s] = .text s := by
  have htext : String.fromUTF8? ⟨(textBytes s).toArray⟩ = some s := by
    simp [textBytes, String.fromUTF8?, String.fromUTF8, s.isValidUTF8]
  simp [textOfChunks, htext]

/-- Things that are read back one by one are read back after each other. -/
theorem readMany_flatMap {α : Type} {read : List UInt8 → Option (α × List UInt8)}
    {write : α → List UInt8} {xs : List α} (done : List α)
    (h : ∀ x ∈ xs, ReadsBack read write x) (rest : List UInt8) :
    readMany read xs.length done (xs.flatMap write ++ rest) = some (done.reverse ++ xs, rest) := by
  induction xs generalizing done with
  | nil => simp [readMany]
  | cons x xs ih =>
    have hx := h x List.mem_cons_self (xs.flatMap write ++ rest)
    have hxs := ih (x :: done) fun y hy => h y (List.mem_cons_of_mem x hy)
    rw [List.flatMap_cons, List.append_assoc, List.length_cons, readMany, hx]
    simpa using hxs

namespace Item

/-- A key and its value are read back in turn. -/
theorem readsBack_pair {read : List UInt8 → Option (Item × List UInt8)} {pair : Item × Item}
    (hkey : ReadsBack read encode pair.1) (hvalue : ReadsBack read encode pair.2) :
    ReadsBack (readPair read) encodePair pair := by
  intro rest
  simp [readPair, encodePair, hkey _, hvalue _]

/-- One level of reading: what is inside an array or a map is already known to be read back. -/
theorem Fits.readsBack_of_inner {levels : Nat} {item : Item} (h : item.Fits maxElements levels)
    (hinner : ∀ inner < levels,
      ∀ item : Item, item.Fits maxElements inner → ReadsBack (read inner) encode item) :
    ReadsBack (read levels) encode item := by
  intro rest
  rw [read, h.readHead_encode (by decide) rest]
  cases item with
  | unsigned n | negative n => simp [major, number, body]
  | bytes data => simp [major, number, body, readChunks_append]
  | text s => simp [major, number, body, readChunks_append, textOfChunks_singleton]
  | simple n =>
    have hn : n < 24 := by simpa only [Fits] using h
    have hinfo : ¬(25 ≤ headInfo n ∧ headInfo n ≤ 27) := by
      rw [headInfo, if_pos hn]
      omega
    simp [major, number, body, hinfo]
  | array items =>
    cases levels with
    | zero => simp [Fits] at h
    | succ inner =>
      obtain ⟨hlength, hitems⟩ := h
      have hread := readMany_flatMap []
        (fun item hitem => hinner inner (by omega) item (hitems item hitem)) rest
      simp [major, number, body, headInfo_ne, hlength, hread]
  | map pairs =>
    cases levels with
    | zero => simp [Fits] at h
    | succ inner =>
      obtain ⟨hlength, hpairs⟩ := h
      have hread := readMany_flatMap []
        (fun pair hpair => readsBack_pair (hinner inner (by omega) pair.1 (hpairs pair hpair).1)
          (hinner inner (by omega) pair.2 (hpairs pair hpair).2)) rest
      simp [major, number, body, headInfo_ne, hlength, hread]
  | garbledText | tagged tag content | float => simp [Fits] at h

/-- A fitting item is read back from its encoding. -/
theorem Fits.readsBack {levels : Nat} {item : Item} (h : item.Fits maxElements levels) :
    ReadsBack (read levels) encode item := by
  induction levels using Nat.strongRecOn generalizing item with
  | ind levels ih =>
    apply h.readsBack_of_inner
    intro inner hlt item hitem
    exact ih inner hlt hitem

/-- A fitting item is what its encoding decodes to, with no byte left over. -/
theorem Fits.decode?_encode {item : Item} (h : item.Fits maxElements maxLevels) :
    decode? item.encode = some item := by
  have hread := h.readsBack []
  rw [List.append_nil] at hread
  simp only [decode?, hread]

end Item

/-- Whether byte strings that start with what is written for two things start with one thing. -/
def StartsAlike {α : Type} (write : α → List UInt8) (x y : α) : Prop :=
  ∀ rest rest', write x ++ rest = write y ++ rest' → x = y ∧ rest = rest'

/-- Texts of the same bytes are equal. -/
theorem textBytes_inj {s t : String} (h : textBytes s = textBytes t) : s = t := by
  have htext := textOfChunks_singleton s
  rw [h, textOfChunks_singleton] at htext
  exact (Item.text.inj htext).symm

/-- Lists of one length are told apart as soon as their elements are. -/
theorem flatMap_append_inj {α : Type} {write : α → List UInt8} {xs ys : List α}
    {rest rest' : List UInt8} (hlength : xs.length = ys.length)
    (h : ∀ x ∈ xs, ∀ y ∈ ys, StartsAlike write x y)
    (heq : xs.flatMap write ++ rest = ys.flatMap write ++ rest') : xs = ys ∧ rest = rest' := by
  induction xs generalizing ys with
  | nil =>
    obtain rfl : ys = [] := List.length_eq_zero_iff.mp hlength.symm
    exact ⟨rfl, by simpa using heq⟩
  | cons x xs ih =>
    cases ys with
    | nil => simp at hlength
    | cons y ys =>
      simp only [List.flatMap_cons, List.append_assoc] at heq
      obtain ⟨rfl, htail⟩ := h x List.mem_cons_self y List.mem_cons_self _ _ heq
      obtain ⟨rfl, hrest⟩ := ih (by simpa using hlength)
        (fun z hz w hw => h z (List.mem_cons_of_mem x hz) w (List.mem_cons_of_mem x hw)) htail
      exact ⟨rfl, hrest⟩

namespace Item

/-- Pairs are told apart by their keys or by their values. -/
theorem startsAlike_pair {pair pair' : Item × Item} (hkey : StartsAlike encode pair.1 pair'.1)
    (hvalue : StartsAlike encode pair.2 pair'.2) : StartsAlike encodePair pair pair' := by
  intro rest rest' h
  simp only [encodePair, List.append_assoc] at h
  obtain ⟨hfst, htail⟩ := hkey _ _ h
  obtain ⟨hsnd, hrest⟩ := hvalue _ _ htail
  exact ⟨Prod.ext hfst hsnd, hrest⟩

variable {most levels : Nat} {a b : Item} {rest rest' : List UInt8}

/-- Heads are told apart by the reader. -/
theorem Fits.head_inj (hmost : most < 2 ^ 64) (ha : a.Fits most levels) (hb : b.Fits most levels)
    (h : a.encode ++ rest = b.encode ++ rest') :
    a.major = b.major ∧ a.number = b.number ∧ a.body ++ rest = b.body ++ rest' := by
  have hread := ha.readHead_encode hmost rest
  rw [h, hb.readHead_encode hmost] at hread
  simp only [Option.some.injEq, Prod.mk.injEq, Head.mk.injEq] at hread
  obtain ⟨⟨hmajor, -, hnumber⟩, hbody⟩ := hread
  exact ⟨hmajor.symm, hnumber.symm, hbody.symm⟩

/-- One level of encodings: those inside arrays and maps are already known to start alike. -/
theorem Fits.startsAlike_of_inner (hmost : most < 2 ^ 64) (ha : a.Fits most levels)
    (hb : b.Fits most levels)
    (hinner : ∀ inner < levels,
      ∀ a b : Item, a.Fits most inner → b.Fits most inner → StartsAlike encode a b) :
    StartsAlike encode a b := by
  intro rest rest' h
  obtain ⟨hmajor, hnumber, hbody⟩ := Fits.head_inj hmost ha hb h
  -- The major types leave one constructor for both items.
  cases a with
  | unsigned n =>
    cases b with
    | unsigned n' => exact ⟨congrArg unsigned hnumber, hbody⟩
    | _ => simp [major] at hmajor
  | negative n =>
    cases b with
    | negative n' => exact ⟨congrArg negative hnumber, hbody⟩
    | _ => simp [major] at hmajor
  | bytes data =>
    cases b with
    | bytes data' =>
      obtain ⟨rfl, hrest⟩ := List.append_inj hbody hnumber
      exact ⟨rfl, hrest⟩
    | _ => simp [major] at hmajor
  | text s =>
    cases b with
    | text s' =>
      obtain ⟨htext, hrest⟩ := List.append_inj hbody hnumber
      exact ⟨congrArg text (textBytes_inj htext), hrest⟩
    | garbledText => simp [Fits] at hb
    | _ => simp [major] at hmajor
  | simple n =>
    cases b with
    | simple n' => exact ⟨congrArg simple hnumber, hbody⟩
    | float => simp [Fits] at hb
    | _ => simp [major] at hmajor
  | array items =>
    cases b with
    | array items' =>
      cases levels with
      | zero => simp [Fits] at ha
      | succ inner =>
        obtain ⟨rfl, hrest⟩ := flatMap_append_inj hnumber
          (fun x hx y hy => hinner inner (by omega) x y (ha.2 x hx) (hb.2 y hy)) hbody
        exact ⟨rfl, hrest⟩
    | _ => simp [major] at hmajor
  | map pairs =>
    cases b with
    | map pairs' =>
      cases levels with
      | zero => simp [Fits] at ha
      | succ inner =>
        have hpairs : ∀ x ∈ pairs, ∀ y ∈ pairs', StartsAlike encodePair x y := by
          intro x hx y hy
          apply startsAlike_pair
          · exact hinner inner (by omega) x.1 y.1 (ha.2 x hx).1 (hb.2 y hy).1
          · exact hinner inner (by omega) x.2 y.2 (ha.2 x hx).2 (hb.2 y hy).2
        obtain ⟨rfl, hrest⟩ := flatMap_append_inj hnumber hpairs hbody
        exact ⟨rfl, hrest⟩
    | _ => simp [major] at hmajor
  | garbledText | tagged tag content | float => simp [Fits] at ha

/-- Bytes that start with the encodings of two fitting items start with one item. -/
theorem Fits.startsAlike (hmost : most < 2 ^ 64) (ha : a.Fits most levels)
    (hb : b.Fits most levels) : StartsAlike encode a b := by
  induction levels using Nat.strongRecOn generalizing a b with
  | ind levels ih =>
    apply ha.startsAlike_of_inner hmost hb
    intro inner hlt x y hx hy
    exact ih inner hlt hx hy

/-- Different fitting items have different encodings. -/
theorem Fits.encode_inj (hmost : most < 2 ^ 64) (ha : a.Fits most levels) (hb : b.Fits most levels)
    (h : a.encode = b.encode) : a = b := by
  have hstarts := Fits.startsAlike hmost ha hb [] []
  simp only [List.append_nil, and_true] at hstarts
  exact hstarts h

end Item

/-- What is assumed of a format. Items without tags and floating-point numbers are read back from
their encodings within the limits of the reader, and within 64 bits no two of them share one. How
the bytes of an item look is not assumed, nor which other bytes are read. -/
structure LawfulFormat extends Format where
  decode?_encode (item : Item) : item.Fits maxElements maxLevels →
    decode? (encode item) = some item
  encode_inj (most levels : Nat) (a b : Item) : most < 2 ^ 64 → a.Fits most levels →
    b.Fits most levels → encode a = encode b → a = b

/-- The canonical format is lawful. -/
def LawfulFormat.canonical : LawfulFormat where
  toFormat := .canonical
  decode?_encode _ h := h.decode?_encode
  encode_inj _ _ _ _ hmost ha hb h := ha.encode_inj hmost hb h

end OperandStack.Cbor
