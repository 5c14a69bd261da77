import OperandStack.Proofs.Code.Decoding
import OperandStack.Proofs.Pool.Calls

/-!
# Code arrays determine their instructions

The reference decoder gives back the instructions that a code array was laid down
from. One instruction is read back from its bytes whatever follows them, and from
every pool that begins with the entries there were when it was laid down: the pool
may grow further while later instructions are encoded.
-/

namespace OperandStack

/-- Two bytes hold every number below 65536. -/
theorem unsignedShort_ofNat {n : Nat} (h : n < 65536) :
    unsignedShort (UInt8.ofNat (n / 256)) (UInt8.ofNat n) = n := by
  simp only [unsignedShort, UInt8.toNat_ofNat']
  omega

private theorem toInt_eq_bmod (n : Int32) : n.toInt = (n.toUInt32.toNat : Int).bmod (2 ^ 32) :=
  BitVec.toInt_eq_toNat_bmod n.toBitVec

/-- The digits of a number that is not negative spell that number. -/
private theorem toNat_toUInt32 {n : Int32} (h : 0 ≤ n.toInt) :
    (n.toUInt32.toNat : Int) = n.toInt := by
  have hlt := n.toUInt32.toNat_lt
  rw [toInt_eq_bmod n] at h ⊢
  simp only [Int.bmod] at h ⊢
  split at h <;> split <;> omega

/-- A number that is not negative is read back from its lowest digits, if these hold it. -/
theorem ofNat_mod_toUInt32 {range : Nat} {n : Int32} (hlo : 0 ≤ n.toInt) (hhi : n.toInt < range) :
    Int32.ofNat (n.toUInt32.toNat % range) = n := by
  have hcast := toNat_toUInt32 hlo
  have hlt : n.toUInt32.toNat < range := by omega
  apply Int32.toInt_inj.mp
  rw [Nat.mod_eq_of_lt hlt, Int32.toInt_ofNat', hcast]
  exact Int.bmod_eq_of_le n.le_toInt n.toInt_lt

/-- A signed number is read back from its lowest digits, if these hold it. -/
theorem signedIn_mod_toUInt32 {range : Nat} {n : Int32} (hdvd : range ∣ 2 ^ 32)
    (hlo : -((range / 2 : Nat) : Int) ≤ n.toInt) (hhi : n.toInt < ((range + 1) / 2 : Nat)) :
    signedIn range (n.toUInt32.toNat % range) = n := by
  have hbmod : (n.toUInt32.toNat : Int).bmod range = n.toInt := by
    rw [← Int.bmod_bmod_of_dvd hdvd, ← toInt_eq_bmod]
    exact Int.bmod_eq_of_le hlo hhi
  rw [signedIn, Int.natCast_emod, Int.emod_bmod, hbmod, Int32.ofInt_toInt]

namespace Instruction

@[simp] theorem toNat_lowByte (n : Int32) : (lowByte n).toNat = n.toUInt32.toNat % 256 :=
  UInt8.toNat_ofNat'

/-- The two lowest bytes are written in the order in which they are read. -/
theorem lowTwoBytes_eq (n : Int32) : ∃ high low, lowTwoBytes n = [high, low] ∧
    unsignedShort high low = n.toUInt32.toNat % 65536 :=
  ⟨_, _, rfl, unsignedShort_ofNat (Nat.mod_lt _ (by decide))⟩

end Instruction

namespace ConstantPool

/-- Bytes from which an instruction is read back: by every pool that begins with the entries of
`after`, and whatever bytes follow. -/
structure ReadsBack (pool after : ConstantPool) (bytes : List UInt8) (i : Instruction) : Prop where
  consistent : after.Consistent
  grows : pool.entries.toList <+: after.entries.toList
  nonempty : bytes ≠ []
  reads : ∀ more : ConstantPool, after.entries.toList <+: more.entries.toList → ∀ rest,
    more.readInstruction? (bytes ++ rest) = some (i, rest)

/-- An instruction without pool index leaves the pool as it is. -/
theorem ReadsBack.of_reads {pool : ConstantPool} (hpool : pool.Consistent) {bytes : List UInt8}
    {i : Instruction} (hbytes : bytes ≠ [])
    (hreads : ∀ (more : ConstantPool) rest,
      more.readInstruction? (bytes ++ rest) = some (i, rest)) :
    ReadsBack pool pool bytes i :=
  ⟨hpool, List.prefix_refl _, hbytes, fun more _ rest => hreads more rest⟩

/-- An instruction with the index of an entered entry: the index fits two bytes and denotes the
entry in every pool that grows from there. -/
theorem ReadsBack.of_entered {pool after : ConstantPool} (hpool : pool.Consistent)
    (call : PoolCall) {entry : PoolEntry} (htarget : call.target? = some entry) {k : Nat}
    (hrun : call.work.on pool = (.ok k, after)) {bytes : List UInt8} {i : Instruction}
    (hbytes : bytes ≠ [])
    (hreads : k < 65536 → ∀ more : ConstantPool, more.entryAt? k = some entry → ∀ rest,
      more.readInstruction? (bytes ++ rest) = some (i, rest)) :
    ReadsBack pool after bytes i := by
  obtain ⟨hcons, hgrow, hindex⟩ := call.step hpool
  rw [hrun] at hcons hgrow hindex
  obtain ⟨e, he, hk⟩ := hindex k rfl
  obtain rfl : entry = e := Option.some.inj (htarget.symm.trans he)
  have hdenotes := hcons.entryAt?_of_index hk
  exact ⟨hcons, hgrow, hbytes, fun more hmore rest =>
    hreads (hcons.index_lt hk) more (entryAt?_mono hmore hdenotes) rest⟩

end ConstantPool

namespace Instruction

open ConstantPool

-- The reader has many equations; they are derived here, once for all instruction forms.
attribute [local simp] readInstruction?

variable {pool after : ConstantPool} {number : Nat} {bytes : List UInt8} {op : Opcode}

/-- An opcode without operands is read back from its single byte. -/
private theorem readsBack_plain (hpool : pool.Consistent) (hwf : (plain op).WellFormed) :
    ReadsBack pool pool [op.byte] (.plain op) := by
  refine .of_reads hpool (by simp) fun more rest => ?_
  have hform : op.operandForm? = some .none := hwf
  simp only [List.cons_append, List.nil_append, readInstruction?, hform]

/-- An immediate operand is read back in the width and with the sign that its opcode has. -/
private theorem readsBack_immediate (hpool : pool.Consistent) {operand : Int32}
    (hwf : (immediate op operand).WellFormed)
    (h : ((immediate op operand).encode number).on pool = (.ok bytes, after)) :
    ReadsBack pool after bytes (.immediate op operand) := by
  rcases hwf with ⟨rfl, hlo, hhi⟩ | ⟨rfl, hlo, hhi⟩ | ⟨rfl, hlo, hhi⟩
  · cases h
    refine .of_reads hpool (by simp) fun more rest => ?_
    have hform : Opcode.bipush.operandForm? = some .signedByte := rfl
    simp only [List.cons_append, List.nil_append, readInstruction?, hform, toNat_lowByte]
    rw [signedIn_mod_toUInt32 (by decide) (by omega) (by omega)]
  · obtain ⟨high, low, hpair, hvalue⟩ := lowTwoBytes_eq operand
    have hbytes : ((immediate .sipush operand).encode number).on pool =
        (.ok (Opcode.sipush.byte :: lowTwoBytes operand), pool) := rfl
    rw [hbytes, hpair] at h
    cases h
    refine .of_reads hpool (by simp) fun more rest => ?_
    have hform : Opcode.sipush.operandForm? = some .signedShort := rfl
    simp only [List.cons_append, List.nil_append, readInstruction?, hform, hvalue]
    rw [signedIn_mod_toUInt32 (by decide) (by omega) (by omega)]
  · cases h
    refine .of_reads hpool (by simp) fun more rest => ?_
    have hform : Opcode.newarray.operandForm? = some .unsignedByte := rfl
    simp only [List.cons_append, List.nil_append, readInstruction?, hform, toNat_lowByte]
    rw [ofNat_mod_toUInt32 hlo (by omega)]

/-- A slot that passes the check is held by two bytes. -/
theorem checkSlot_eq_ok {slot : Int32} {u : Unit} (h : (checkSlot slot).on pool = (.ok u, after)) :
    after = pool ∧ 0 ≤ slot.toInt ∧ slot.toInt ≤ 65535 := by
  unfold checkSlot at h
  split at h
  · cases h
  · next hrange =>
    cases h
    simp only [Int32.lt_iff_toInt_lt, not_or, Int.not_lt] at hrange
    exact ⟨rfl, hrange.1, hrange.2⟩

/-- A slot is read back from one byte, or from two behind the prefix for wide operands. -/
private theorem readsBack_access (hpool : pool.Consistent) {slot : Int32}
    (hwf : (access op slot).WellFormed)
    (h : ((access op slot).encode number).on pool = (.ok bytes, after)) :
    ReadsBack pool after bytes (.access op slot) := by
  have hform : op.operandForm? = some .slot := by
    simp only [WellFormed, List.mem_cons, List.not_mem_nil, or_false] at hwf
    rcases hwf with rfl | rfl | rfl | rfl | rfl | rfl | rfl | rfl | rfl | rfl <;> rfl
  obtain ⟨_, middle, hcheck, hrest⟩ := Pooling.on_bind_eq_ok h
  obtain ⟨rfl, hlo, hhi⟩ := checkSlot_eq_ok hcheck
  split at hrest
  · obtain ⟨high, low, hpair, hvalue⟩ := lowTwoBytes_eq slot
    rw [hpair] at hrest
    cases hrest
    refine .of_reads hpool (by simp) fun more rest => ?_
    have hwide : Opcode.wide.operandForm? = some .wide := rfl
    simp only [List.cons_append, List.nil_append, readInstruction?, hwide, readWide?, hform, hvalue]
    rw [ofNat_mod_toUInt32 hlo (by omega)]
  · next hnarrow =>
    cases hrest
    rw [Int32.lt_iff_toInt_lt, Int.not_lt] at hnarrow
    have hsmall : slot.toInt ≤ 255 := hnarrow
    refine .of_reads hpool (by simp) fun more rest => ?_
    simp only [List.cons_append, List.nil_append, readInstruction?, hform, toNat_lowByte]
    rw [ofNat_mod_toUInt32 hlo (by omega)]

/-- Slot and increment are both written wide if one of them has to be, and read back so. -/
private theorem readsBack_increment (hpool : pool.Consistent) {slot delta : Int32}
    (h : ((increment .iinc slot delta).encode number).on pool = (.ok bytes, after)) :
    ReadsBack pool after bytes (.increment .iinc slot delta) := by
  have hform : Opcode.iinc.operandForm? = some .increment := rfl
  obtain ⟨_, middle, hcheck, hrest⟩ := Pooling.on_bind_eq_ok h
  obtain ⟨rfl, hlo, hhi⟩ := checkSlot_eq_ok hcheck
  dsimp only at hrest
  split at hrest
  · cases hrest
  · next hdelta =>
    simp only [Int32.lt_iff_toInt_lt, not_or, Int.not_lt] at hdelta
    obtain ⟨hdlo, hdhi⟩ : -32768 ≤ delta.toInt ∧ delta.toInt ≤ 32767 := hdelta
    split at hrest
    · obtain ⟨high, low, hpair, hvalue⟩ := lowTwoBytes_eq slot
      obtain ⟨high', low', hpair', hvalue'⟩ := lowTwoBytes_eq delta
      rw [hpair, hpair'] at hrest
      cases hrest
      refine .of_reads hpool (by simp) fun more rest => ?_
      have hwide : Opcode.wide.operandForm? = some .wide := rfl
      simp only [List.cons_append, List.nil_append, readInstruction?, hwide, readWide?, hform,
        hvalue, hvalue']
      rw [ofNat_mod_toUInt32 hlo (by omega),
        signedIn_mod_toUInt32 (by decide) (by omega) (by omega)]
    · next hnarrow =>
      cases hrest
      simp only [Int32.lt_iff_toInt_lt, not_or, Int.not_lt] at hnarrow
      obtain ⟨hslot, hnlo, hnhi⟩ : slot.toInt ≤ 255 ∧ -128 ≤ delta.toInt ∧ delta.toInt ≤ 127 :=
        hnarrow
      refine .of_reads hpool (by simp) fun more rest => ?_
      simp only [List.cons_append, List.nil_append, readInstruction?, hform, toNat_lowByte]
      rw [ofNat_mod_toUInt32 hlo (by omega),
        signedIn_mod_toUInt32 (by decide) (by omega) (by omega)]

/-- A type is read back through its class entry. -/
private theorem readsBack_typed (hpool : pool.Consistent) {owner : String}
    (hwf : (typed op owner).WellFormed)
    (h : ((typed op owner).encode number).on pool = (.ok bytes, after)) :
    ReadsBack pool after bytes (.typed op owner) := by
  have hform : op.operandForm? = some .type := by
    simp only [WellFormed, List.mem_cons, List.not_mem_nil, or_false] at hwf
    rcases hwf with rfl | rfl | rfl | rfl <;> rfl
  obtain ⟨k, middle, hentered, hrest⟩ := Pooling.on_bind_eq_ok h
  cases hrest
  refine .of_entered hpool (.classRef owner) rfl hentered (by simp)
    fun hk more hdenotes rest => ?_
  simp only [twoBytes, List.cons_append, List.nil_append, readInstruction?, hform, readType?,
    unsignedShort_ofNat hk, hdenotes, Option.map_some]

/-- A field is read back through its entry. -/
private theorem readsBack_field (hpool : pool.Consistent) {owner name descriptor : String}
    (hwf : (field op owner name descriptor).WellFormed)
    (h : ((field op owner name descriptor).encode number).on pool = (.ok bytes, after)) :
    ReadsBack pool after bytes (.field op owner name descriptor) := by
  have hform : op.operandForm? = some .field := by
    simp only [WellFormed, List.mem_cons, List.not_mem_nil, or_false] at hwf
    rcases hwf with rfl | rfl | rfl | rfl <;> rfl
  obtain ⟨k, middle, hentered, hrest⟩ := Pooling.on_bind_eq_ok h
  cases hrest
  refine .of_entered hpool (.field owner name descriptor) rfl hentered (by simp)
    fun hk more hdenotes rest => ?_
  simp only [twoBytes, List.cons_append, List.nil_append, readInstruction?, hform, readField?,
    unsignedShort_ofNat hk, hdenotes, Option.map_some]

/-- A method entry tells whether its owner is an interface. -/
private theorem readMethod?_eq {more : ConstantPool} {k : Nat} {owner name descriptor : String}
    {ofInterface : Bool}
    (h : more.entryAt? k = (PoolCall.method owner name descriptor ofInterface).target?) :
    more.readMethod? op k = some (.method op owner name descriptor ofInterface) := by
  cases ofInterface <;> simp [readMethod?, h, PoolCall.target?]

/-- A method is read back through its entry, whatever count of slots follows an interface call. -/
private theorem readsBack_method (hpool : pool.Consistent) {owner name descriptor : String}
    {ofInterface : Bool} (hwf : (method op owner name descriptor ofInterface).WellFormed)
    (h : ((method op owner name descriptor ofInterface).encode number).on pool =
      (.ok bytes, after)) :
    ReadsBack pool after bytes (.method op owner name descriptor ofInterface) := by
  obtain ⟨k, middle, hentered, hrest⟩ := Pooling.on_bind_eq_ok h
  let call : PoolCall := .method owner name descriptor ofInterface
  by_cases hop : op = .invokeinterface
  · subst hop
    have hform : Opcode.invokeinterface.operandForm? = some .interfaceMethod := rfl
    rw [if_pos rfl] at hrest
    obtain ⟨slots, last, hslots, hdone⟩ := Pooling.on_bind_eq_ok hrest
    have hlast : last = middle := by
      cases hcount : argumentSlots descriptor with
      | error e => rw [hcount] at hslots; cases hslots
      | ok n => rw [hcount] at hslots; cases hslots; rfl
    subst hlast
    cases hdone
    refine .of_entered hpool call rfl hentered (by simp) fun hk more hdenotes rest => ?_
    simp only [twoBytes, List.cons_append, List.nil_append, readInstruction?, hform,
      unsignedShort_ofNat hk, readMethod?_eq hdenotes, if_true, Option.map_some]
  · have hform : op.operandForm? = some .method := by
      simp only [WellFormed, List.mem_cons, List.not_mem_nil, or_false, hop] at hwf
      rcases hwf with rfl | rfl | rfl <;> rfl
    rw [if_neg hop] at hrest
    cases hrest
    refine .of_entered hpool call rfl hentered (by simp) fun hk more hdenotes rest => ?_
    simp only [twoBytes, List.cons_append, List.nil_append, readInstruction?, hform,
      unsignedShort_ofNat hk, readMethod?_eq hdenotes, Option.map_some]

/-- The entry of a literal holds that literal. -/
private theorem literal?_of_pooled? {c : Constant} {entry : PoolEntry}
    (h : c.pooled? = some entry) : entry.literal? = some c := by
  cases c <;> cases h <;> rfl

/-- A literal is found under its index by the opcode of its width. -/
private theorem readLiteral?_eq {more : ConstantPool} {k : Nat} {c : Constant} {entry : PoolEntry}
    (hentry : c.pooled? = some entry) (h : more.entryAt? k = some entry) :
    more.readLiteral? k c.isWide = some (.load (if c.isWide then .ldc2W else .ldc) c) := by
  have hliteral : more.literalAt? k = some c := by
    simp only [literalAt?, h, Option.bind_eq_bind, Option.bind_some, literal?_of_pooled? hentry]
  simp [readLiteral?, hliteral]

/-- A literal is read back from the shortest of the three forms that its index and width allow. -/
private theorem readsBack_load (hpool : pool.Consistent) {c : Constant}
    (hwf : (load op c).WellFormed)
    (h : ((load op c).encode number).on pool = (.ok bytes, after)) :
    ReadsBack pool after bytes (.load op c) := by
  obtain ⟨htagged, rfl⟩ := hwf
  obtain ⟨entry, hentry⟩ : ∃ entry, c.pooled? = some entry := by
    cases c with
    | untagged text => exact absurd rfl htagged
    | _ => exact ⟨_, rfl⟩
  obtain ⟨k, middle, hentered, hrest⟩ := Pooling.on_bind_eq_ok h
  cases hwide : c.isWide with
  | true =>
    rw [hwide, if_pos rfl] at hrest
    cases hrest
    refine .of_entered hpool (.literal c) hentry hentered (by simp) fun hk more hdenotes rest => ?_
    have hform : Opcode.ldc2W.operandForm? = some .wideLiteral := rfl
    have hread := readLiteral?_eq hentry hdenotes
    rw [hwide] at hread
    simp only [twoBytes, List.cons_append, List.nil_append, readInstruction?, hform,
      unsignedShort_ofNat hk, hread, Option.map_some]
  | false =>
    rw [hwide, if_neg Bool.false_ne_true] at hrest
    split at hrest
    · cases hrest
      refine .of_entered hpool (.literal c) hentry hentered (by simp) fun hk more hdenotes rest => ?_
      have hform : Opcode.ldcW.operandForm? = some .literal := rfl
      have hread := readLiteral?_eq hentry hdenotes
      rw [hwide] at hread
      simp only [twoBytes, List.cons_append, List.nil_append, readInstruction?, hform,
        unsignedShort_ofNat hk, hread, Option.map_some]
    · next hnarrow =>
      cases hrest
      refine .of_entered hpool (.literal c) hentry hentered (by simp) fun hk more hdenotes rest => ?_
      have hform : Opcode.ldc.operandForm? = some .shortLiteral := rfl
      have hread := readLiteral?_eq hentry hdenotes
      have hbyte : (UInt8.ofNat k).toNat = k := by
        rw [UInt8.toNat_ofNat']
        omega
      rw [hwide] at hread
      simp only [List.cons_append, List.nil_append, readInstruction?, hform, hbyte, hread,
        Option.map_some]

/-- Every well-formed instruction is read back from the bytes it was laid down as. -/
theorem encode_readsBack (hpool : pool.Consistent) {i : Instruction} (hwf : i.WellFormed)
    (h : (i.encode number).on pool = (.ok bytes, after)) : ReadsBack pool after bytes i := by
  cases i with
  | plain op =>
    cases h
    exact readsBack_plain hpool hwf
  | immediate op operand => exact readsBack_immediate hpool hwf h
  | access op slot => exact readsBack_access hpool hwf h
  | increment op slot delta =>
    cases hwf
    exact readsBack_increment hpool h
  | typed op owner => exact readsBack_typed hpool hwf h
  | field op owner name descriptor => exact readsBack_field hpool hwf h
  | method op owner name descriptor ofInterface => exact readsBack_method hpool hwf h
  | load op c => exact readsBack_load hpool hwf h
  | unknown form op => exact absurd hwf id

/-- The bytes laid down for a list are read back as that list, by every pool that begins with the
entries there are at the end. -/
theorem encodeFrom_reads {instructions : List Instruction}
    (hwf : ∀ i ∈ instructions, i.WellFormed) (hpool : pool.Consistent) {before out : Array UInt8}
    (h : (encodeFrom number before instructions).on pool = (.ok out, after)) :
    ∃ code, out.toList = before.toList ++ code ∧
      pool.entries.toList <+: after.entries.toList ∧
      ∀ more : ConstantPool, after.entries.toList <+: more.entries.toList →
        ∀ fuel, code.length ≤ fuel → more.readInstructions? fuel code = some instructions := by
  induction instructions generalizing number pool before with
  | nil =>
    cases h
    exact ⟨[], by simp, List.prefix_refl _, fun more _ fuel _ => by cases fuel <;> rfl⟩
  | cons i rest ih =>
    obtain ⟨bytes, middle, hfirst, hrest⟩ := Pooling.on_bind_eq_ok h
    have hreads := encode_readsBack hpool (hwf i List.mem_cons_self) hfirst
    obtain ⟨code, hcode, hgrow, hlater⟩ :=
      ih (fun j hj => hwf j (List.mem_cons_of_mem _ hj)) hreads.consistent hrest
    refine ⟨bytes ++ code, ?_, hreads.grows.trans hgrow, fun more hmore fuel hfuel => ?_⟩
    · rw [hcode, Array.toList_appendList, List.append_assoc]
    · obtain ⟨b, tail, rfl⟩ := List.exists_cons_of_ne_nil hreads.nonempty
      obtain ⟨fuel, rfl⟩ : ∃ f, fuel = f + 1 := by
        cases fuel with
        | zero => simp at hfuel
        | succ f => exact ⟨f, rfl⟩
      have hfuel' : code.length ≤ fuel := by
        simp only [List.cons_append, List.length_cons, List.length_append] at hfuel
        omega
      have hhead := hreads.reads more (hgrow.trans hmore) code
      have htail := hlater more hmore fuel hfuel'
      rw [List.cons_append] at hhead ⊢
      simp only [readInstructions?, hhead, htail, Option.bind_eq_bind, Option.bind_some,
        Option.pure_def]

/-- Every instruction of a list that has been laid down has been laid down on some pool. -/
theorem exists_encode_of_encodeFrom {instructions : List Instruction} {before out : Array UInt8}
    (h : (encodeFrom number before instructions).on pool = (.ok out, after)) :
    ∀ i ∈ instructions, ∃ place start bytes stop,
      (i.encode place).on start = (.ok bytes, stop) := by
  induction instructions generalizing number pool before with
  | nil => simp
  | cons i rest ih =>
    obtain ⟨bytes, middle, hfirst, hrest⟩ := Pooling.on_bind_eq_ok h
    rw [List.forall_mem_cons]
    exact ⟨⟨number, pool, bytes, middle, hfirst⟩, ih hrest⟩

/-- Code that is laid down as a whole was laid down instruction by instruction. -/
theorem exists_encode_of_encodeCode {instructions : List Instruction} {code : Array UInt8}
    (h : (encodeCode instructions).on pool = (.ok code, after)) :
    ∀ i ∈ instructions, ∃ place start bytes stop,
      (i.encode place).on start = (.ok bytes, stop) := by
  obtain ⟨bytes, middle, hbytes, _⟩ := Pooling.on_bind_eq_ok h
  exact exists_encode_of_encodeFrom hbytes

end Instruction

/-- The code array of well-formed instructions, together with the pool it leaves, determines them:
the decoder uses up the whole array and gives the instructions back, on every pool that calls can
lead to from the empty one. -/
theorem decode?_encodeCode (calls : List PoolCall) {instructions : List Instruction}
    (hwf : ∀ i ∈ instructions, i.WellFormed) {code : Array UInt8} {pool : ConstantPool}
    (h : (encodeCode instructions).on (ConstantPool.empty.after calls) = (.ok code, pool)) :
    pool.decode? code.toList = some instructions := by
  obtain ⟨bytes, middle, hbytes, hlength⟩ := Pooling.on_bind_eq_ok h
  have hstart := ConstantPool.empty_consistent.after calls
  obtain ⟨tail, htail, _, hreads⟩ := Instruction.encodeFrom_reads hwf hstart hbytes
  dsimp only at hlength
  split at hlength
  · cases hlength
  · cases hlength
    rw [List.nil_append] at htail
    rw [ConstantPool.decode?, htail]
    exact hreads pool (List.prefix_refl _) _ (Nat.le_refl _)

/-- A signed number, wide forms of both local accesses, a literal of two indices and a class whose
name is in the pool before. -/
theorem decode?_encodeCode_mixed :
    let instructions : List Instruction := [.immediate .sipush (-300), .access .iload 300,
      .increment .iinc 5 (-200), .load .ldc2W (.long 7), .typed .new "A"]
    ∃ code pool, (encodeCode instructions).on (ConstantPool.empty.after [.utf8 "A"]) =
      (.ok code, pool) ∧ pool.decode? code.toList = some instructions := by
  intro instructions
  have hlength : ConstantPool.classFileLength "A" = 1 := by
    rw [ConstantPool.classFileLength_eq_sum]
    rfl
  have hrun : ∃ code pool,
      (encodeCode instructions).on (ConstantPool.empty.after [.utf8 "A"]) = (.ok code, pool) := by
    simp [-bind_pure_comp, encodeCode, Instruction.encodeFrom, Instruction.encode, instructions,
      Pooling.on_bind, Pooling.on_add, ConstantPool.after, PoolCall.work, ConstantPool.utf8,
      ConstantPool.classRef, ConstantPool.literal, ConstantPool.empty, Instruction.checkSlot,
      hlength, ConstantPool.maxIndex, PoolEntry.slots, Constant.isWide, maxCodeLength,
      Instruction.twoBytes, Instruction.lowTwoBytes]
  obtain ⟨code, pool, h⟩ := hrun
  exact ⟨code, pool, h, decode?_encodeCode [.utf8 "A"] (by decide) h⟩

end OperandStack
