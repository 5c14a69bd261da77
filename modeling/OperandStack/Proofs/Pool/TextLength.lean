import OperandStack.Proofs.Pool.Room

/-!
# The length of texts in class files

A class file stores a text as the bytes of its UTF-16 units, each unit on its own, so that
a character beyond the first 65536 is stored as two surrogates. The pool never lays these
bytes down; it adds up a length by character. The length is that of the bytes, and so a text
is refused exactly if its bytes do not fit.
-/

namespace OperandStack

namespace ClassFile

/-- The UTF-16 units of a character: the character itself, or a high and a low surrogate. -/
def unitsOf (c : Char) : List UInt16 :=
  if c.toNat < 0x10000 then [UInt16.ofNat c.toNat]
  else
    let n := c.toNat - 0x10000
    [UInt16.ofNat (0xD800 + n / 0x400), UInt16.ofNat (0xDC00 + n % 0x400)]

/-- The UTF-16 units of a text. -/
def units (s : String) : List UInt16 := s.toList.flatMap unitsOf

/-- The bytes of one unit. Only units of seven bits take one byte, and zero is not one of them. -/
def unitBytes (u : UInt16) : List UInt8 :=
  let n := u.toNat
  if 1 ≤ n ∧ n ≤ 0x7F then [UInt8.ofNat n]
  else if n ≤ 0x7FF then [UInt8.ofNat (0xC0 + n / 0x40), UInt8.ofNat (0x80 + n % 0x40)]
  else
    [UInt8.ofNat (0xE0 + n / 0x1000), UInt8.ofNat (0x80 + n / 0x40 % 0x40),
      UInt8.ofNat (0x80 + n % 0x40)]

/-- The bytes of a text in a class file. -/
def bytes (s : String) : List UInt8 := (units s).flatMap unitBytes

/-- A code unit takes one byte to three. -/
theorem length_unitBytes (u : UInt16) :
    (unitBytes u).length =
      if 1 ≤ u.toNat ∧ u.toNat ≤ 0x7F then 1 else if u.toNat ≤ 0x7FF then 2 else 3 := by
  unfold unitBytes
  dsimp only
  split_ifs <;> rfl

/-- A surrogate takes three bytes. -/
theorem length_unitBytes_surrogate {n : Nat} (hlow : 0xD800 ≤ n) (hhigh : n < 0xE000) :
    (unitBytes (UInt16.ofNat n)).length = 3 := by
  have hn : (UInt16.ofNat n).toNat = n :=
    UInt16.toNat_ofNat_of_lt' (Nat.lt_of_lt_of_le hhigh (by decide))
  rw [length_unitBytes, hn, if_neg (by omega), if_neg (by omega)]

/-- The bytes that a character brings in are as many as the pool counts for it. -/
theorem length_bytes_unitsOf (c : Char) :
    ((unitsOf c).flatMap unitBytes).length = ConstantPool.classFileSize c := by
  unfold unitsOf ConstantPool.classFileSize
  dsimp only
  split
  · next hbasic =>
    have hn : (UInt16.ofNat c.toNat).toNat = c.toNat := UInt16.toNat_ofNat_of_lt' hbasic
    rw [List.flatMap_singleton, length_unitBytes, hn]
    split_ifs <;> omega
  · next hbeyond =>
    have hvalid : c.toNat < 0xD800 ∨ 0xDFFF < c.toNat ∧ c.toNat < 0x110000 := c.valid
    have hhigh := length_unitBytes_surrogate (n := 0xD800 + (c.toNat - 0x10000) / 0x400)
      (by omega) (by omega)
    have hlow := length_unitBytes_surrogate (n := 0xDC00 + (c.toNat - 0x10000) % 0x400)
      (by omega) (by omega)
    rw [List.flatMap_cons, List.flatMap_singleton, List.length_append, hhigh, hlow]
    split_ifs <;> omega

/-- The length that the pool adds up is that of the bytes. -/
theorem length_bytes (s : String) : (bytes s).length = ConstantPool.classFileLength s := by
  rw [bytes, units, List.flatMap_assoc, List.length_flatMap, ConstantPool.classFileLength_eq_sum]
  congr 1
  exact List.map_congr_left fun c _ => length_bytes_unitsOf c

example : bytes "a\x00é€😀" =
    [0x61, 0xC0, 0x80, 0xC3, 0xA9, 0xE2, 0x82, 0xAC, 0xED, 0xA0, 0xBD, 0xED, 0xB8, 0x80] := by
  decide

end ClassFile

namespace ConstantPool

/-- A text whose bytes do not fit is refused, and the error tells their number. -/
theorem on_utf8_of_long {s : String} (h : 65535 < (ClassFile.bytes s).length)
    (pool : ConstantPool) :
    (utf8 s).on pool =
      (.error (.overflow (some .encode) ["utf8"] (toString (ClassFile.bytes s).length)
        "65535 bytes"), pool) := by
  rw [ClassFile.length_bytes] at h ⊢
  unfold utf8
  dsimp only
  rw [if_pos h]
  rfl

/-- The length of a text is the number of its bytes in a class file. On a pool with a free index a
text is entered exactly if at most 65535 bytes are needed for it; otherwise it is refused with their
number, and the pool stays as it is. -/
theorem classFileLength_exact (s : String) :
    classFileLength s = (ClassFile.bytes s).length ∧
    ∀ pool : ConstantPool, pool.count ≤ maxIndex →
      ((∃ i after, (utf8 s).on pool = (.ok i, after)) ↔ (ClassFile.bytes s).length ≤ 65535) ∧
      (65535 < (ClassFile.bytes s).length →
        (utf8 s).on pool = (.error (.overflow (some .encode) ["utf8"]
          (toString (ClassFile.bytes s).length) "65535 bytes"), pool)) := by
  refine ⟨(ClassFile.length_bytes s).symm, fun pool hroom => ⟨⟨?_, ?_⟩, ?_⟩⟩
  · rintro ⟨i, after, hentered⟩
    by_contra hlong
    rw [on_utf8_of_long (Nat.lt_of_not_le hlong)] at hentered
    cases hentered
  · intro hfits
    rw [ClassFile.length_bytes] at hfits
    obtain ⟨i, after, hentered, _⟩ := Pooling.needs_utf8 hfits pool (Nat.succ_le_succ hroom)
    exact ⟨i, after, hentered⟩
  · intro hlong
    exact on_utf8_of_long hlong pool

/-- The zero character takes two bytes. -/
theorem length_bytes_zeros (n : Nat) :
    (ClassFile.bytes (String.ofList (List.replicate n '\x00'))).length = 2 * n := by
  rw [ClassFile.length_bytes, classFileLength_eq_sum, String.toList_ofList, List.map_replicate,
    List.sum_replicate_nat]
  exact Nat.mul_comm n 2

/-- The longest text of zero characters, and the one that is too long by a byte. -/
theorem classFileLength_exact_zeros :
    empty.count ≤ maxIndex ∧
    (∃ i after, (utf8 (String.ofList (List.replicate 32767 '\x00'))).on empty = (.ok i, after)) ∧
    (utf8 (String.ofList (List.replicate 32768 '\x00'))).on empty =
      (.error (.overflow (some .encode) ["utf8"] "65536" "65535 bytes"), empty) := by
  have hroom : empty.count ≤ maxIndex := by decide
  obtain ⟨_, hlongest⟩ := classFileLength_exact (String.ofList (List.replicate 32767 '\x00'))
  obtain ⟨_, hbeyond⟩ := classFileLength_exact (String.ofList (List.replicate 32768 '\x00'))
  refine ⟨hroom, (hlongest empty hroom).1.mpr ?_, ?_⟩
  · rw [length_bytes_zeros]
    decide
  · have hlong := (hbeyond empty hroom).2
    rw [length_bytes_zeros] at hlong
    exact hlong (by decide)

end ConstantPool

end OperandStack
