import OperandStack.Proofs.Frame.Size

/-!
# The limit on local variables

A body is accepted if the ends of all its local accesses keep to a limit, and these ends are
64-bit sums of a slot and a width. As long as the sum is in range, an access beyond the limit
is refused, wherever it stands in the body. At the last slots that 64 bits can hold the sum
wraps to a negative number, which no limit refuses: such an access is accepted and not
counted. It cannot be laid down in a code array, since no operand holds its slot.
-/

namespace OperandStack

namespace Manipulation

/-- Whether an atom stands somewhere in a tree. Custom steps hold an atom if they hold what the atom
emits. -/
inductive Holds (a : Atom) : Manipulation → Prop where
  | atom : Holds a (.atom a)
  | compound {members : List Manipulation} {m : Manipulation} (hm : m ∈ members)
      (h : Holds a m) : Holds a (.compound members)
  | arrayLiteral {component : Component} {elements : List Manipulation} {m : Manipulation}
      (hm : m ∈ elements) (h : Holds a m) : Holds a (.arrayLiteral component elements)
  | custom {steps : List Step} {effect : StackEffect} {valid : Bool} (h : a.steps ⊆ steps) :
      Holds a (.custom steps effect valid)

/-- The steps of an element are among those that fill the array. -/
theorem mem_elementSteps {m : Manipulation} {s : Step} (hs : s ∈ m.steps) (component : Component) :
    {ms : List Manipulation} → m ∈ ms → (index : Nat) → s ∈ elementSteps component index ms
  | first :: rest, hm, index => by
    simp only [elementSteps, List.mem_append]
    rcases List.mem_cons.mp hm with rfl | hm
    · exact Or.inr (Or.inr (Or.inl hs))
    · exact Or.inr (Or.inr (Or.inr (Or.inr (mem_elementSteps hs component hm (index + 1)))))

/-- What an atom emits is emitted wherever the atom stands. -/
theorem Holds.mem_steps {a : Atom} {m : Manipulation} (h : m.Holds a) {s : Step}
    (hs : s ∈ a.steps) : s ∈ m.steps := by
  induction h with
  | atom => exact hs
  | compound hm _ ih =>
    rw [steps, allSteps_eq]
    exact List.mem_flatMap_of_mem hm ih
  | arrayLiteral hm _ ih =>
    rw [steps]
    exact List.mem_append_right _ (List.mem_append_right _ (mem_elementSteps ih _ hm 0))
  | custom h => exact h hs

end Manipulation

/-- Local variables keep to a limit exactly if those of the arguments and the ends of all accesses
do. -/
theorem maxLocalsOf_le_iff {m : Method} {code : List Step} {limit : Int64} :
    maxLocalsOf m code.toArray ≤ limit ↔
      Int64.ofNat m.slots ≤ limit ∧ ∀ s ∈ code, ∀ e, s.localEnd? = some e → e ≤ limit := by
  simp only [Int64.le_iff_toInt_le]
  rw [isLUB_le_iff (isGreatest_maxLocalsOf m code).isLUB, upperBounds_insert, Set.mem_inter_iff,
    Set.mem_Ici]
  refine and_congr_right fun _ => ⟨?_, ?_⟩
  · intro hupper s hs e he
    exact hupper ⟨s, hs, e, he, rfl⟩
  · rintro hends _ ⟨s, hs, e, he, rfl⟩
    exact hends s hs e he

section

variable {limits : Limits} {m : Method} {body : Manipulation} {a : Atom} {c : Computational}
  {slot : Int64}

/-- The 64-bit end of every access in an accepted body keeps to the limit in force. -/
theorem end_le_of_accepted (haccess : a.Accesses c slot) (hslot : 0 ≤ slot) (hbody : body.Holds a)
    (haccepted : (emitBody limits m body).failure? = none) :
    slot + Int64.ofNat c.size.slots.toNat ≤ Limits.inForce limits.maxLocals := by
  obtain ⟨_, _, hlocals⟩ := emitBody_accepted_iff.mp haccepted
  obtain ⟨_, hends⟩ := maxLocalsOf_le_iff.mp hlocals
  obtain ⟨s, hs, hend⟩ := haccess.exists_step hslot
  exact hends s (hbody.mem_steps (Option.mem_toList.mpr hs)) _ hend

/-- In a body that has been laid down as a code array, no end has wrapped. -/
theorem end_lt_of_assembled (haccess : a.Accesses c slot) (hslot : 0 ≤ slot)
    (hbody : body.Holds a) (hencode : limits.skipEncode = false) {code : MethodCode}
    (h : (assembleMethod limits m body).result = .ok code) :
    slot.toInt + c.size.slots.toNat < 2 ^ 63 := by
  obtain ⟨haccepted, _, hrecording, pool, hcode⟩ := assembleMethod_eq_ok hencode h
  obtain ⟨_, hsteps, _⟩ := emitBody_of_accepted haccepted
  obtain ⟨s, hs, _⟩ := haccess.exists_step hslot
  have hrecorded : s.instruction ∈ code.recording.instructions.toList := by
    rw [hrecording, hsteps, Recording.instructions_ofSteps]
    exact List.mem_map_of_mem (hbody.mem_steps (Option.mem_toList.mpr hs))
  -- The operand of a slot whose end wraps is negative, and such an operand is not laid down.
  by_contra hwraps
  exact haccess.not_addressable (Int.not_lt.mp hwraps) hs
    (Instruction.addressable_of_encodeCode hcode _ hrecorded)

/-- An access whose end wraps is accepted wherever the rest of the frame is: it is not counted. -/
theorem accepted_of_wraps (haccess : a.Accesses c slot) (hslot : 0 ≤ slot)
    (hwraps : 2 ^ 63 ≤ slot.toInt + c.size.slots.toNat)
    (hstack : a.effect.peak ≤ Limits.inForce limits.maxStack)
    (hslots : Int64.ofNat m.slots ≤ Limits.inForce limits.maxLocals) :
    (emitBody limits m (.atom a)).failure? = none := by
  obtain ⟨s, hs, hend⟩ := haccess.exists_step hslot
  have hsteps : (Manipulation.atom a).steps = [s] := by
    rw [Manipulation.steps, Atom.steps, hs, Option.toList_some]
  have hnegative := toInt_end_neg c.slots_le hwraps
  have hlimit : 0 ≤ (Limits.inForce limits.maxLocals).toInt :=
    Int64.le_iff_toInt_le.mp (Limits.inForce_nonneg limits.maxLocals)
  -- No limit in force is negative, so that a negative end keeps to every one.
  refine emitBody_accepted_iff.mpr ⟨rfl, ?_, maxLocalsOf_le_iff.mpr ⟨hslots, ?_⟩⟩
  · rw [Manipulation.effect]
    exact hstack
  · rw [hsteps, List.forall_mem_singleton, hend]
    rintro _ ⟨⟩
    rw [Int64.le_iff_toInt_le]
    omega

end

/-- The limit on local variables holds up to the range of 64 bits. Of an access in an accepted body,
wherever it stands there, the slot and the width add up to at most the limit in force exactly if
they add up to less than 2 ^ 63. In a body that has been laid down as a code array they always keep
to the limit. Beyond the range the access passes under every limit that the arguments keep to. -/
theorem accepted_end_le_limit_iff {a : Atom} {c : Computational} {slot : Int64}
    (haccess : a.Accesses c slot) (hslot : 0 ≤ slot) (limits : Limits) (m : Method) :
    let stop : Int := slot.toInt + c.size.slots.toNat
    let limit : Int := (Limits.inForce limits.maxLocals).toInt
    limit ≤ 65535 ∧
    (∀ body : Manipulation, body.Holds a → (emitBody limits m body).failure? = none →
      (stop ≤ limit ↔ stop < 2 ^ 63)) ∧
    (∀ body : Manipulation, body.Holds a → limits.skipEncode = false →
      ∀ code, (assembleMethod limits m body).result = .ok code → stop ≤ limit) ∧
    (2 ^ 63 ≤ stop → a.effect.peak ≤ Limits.inForce limits.maxStack →
      Int64.ofNat m.slots ≤ Limits.inForce limits.maxLocals →
      (emitBody limits m (.atom a)).failure? = none) := by
  intro stop limit
  have hformat : limit ≤ 65535 := Limits.toInt_inForce_le limits.maxLocals
  have hkeeps : ∀ body : Manipulation, body.Holds a →
      (emitBody limits m body).failure? = none → stop < 2 ^ 63 → stop ≤ limit := by
    intro body hbody haccepted hfits
    have hend := Int64.le_iff_toInt_le.mp (end_le_of_accepted haccess hslot hbody haccepted)
    rwa [toInt_end_of_lt hslot hfits] at hend
  refine ⟨hformat, ?_, ?_, accepted_of_wraps haccess hslot⟩
  · intro body hbody haccepted
    exact ⟨fun hle => by omega, hkeeps body hbody haccepted⟩
  · intro body hbody hencode code h
    exact hkeeps body hbody (assembleMethod_eq_ok hencode h).1
      (end_lt_of_assembled haccess hslot hbody hencode h)

open Manipulation in
/-- A long at the last two slots of the format, stored as part of a longer body, keeps to the limit;
a double at the last two slots of 64 bits passes under it. -/
theorem accepted_end_le_limit_iff_lastSlots :
    let m : Method := ⟨.object, "run", .isStatic, .void, []⟩
    let body := compose [push (.long 5), store .long 65533, giveBack .void]
    (Atom.store .long 65533).Accesses .long 65533 ∧ (0 : Int64) ≤ 65533 ∧
      body.Holds (.store .long 65533) ∧ (emitBody .default m body).failure? = none ∧
      (65533 : Int64).toInt + Computational.long.size.slots.toNat ≤
        (Limits.inForce Limits.default.maxLocals).toInt ∧
      (emitBody .default m (load .double 9223372036854775806)).failure? = none := by
  intro m body
  have hstore : (Atom.store .long 65533).Accesses .long 65533 := .store _ _
  have hload : (Atom.load .double 9223372036854775806).Accesses .double 9223372036854775806 :=
    .load _ _
  have hbody : body.Holds (.store .long 65533) :=
    .compound (List.mem_cons_of_mem _ List.mem_cons_self) .atom
  have haccepted : (emitBody .default m body).failure? = none := by decide
  obtain ⟨_, hlimit, _⟩ := accepted_end_le_limit_iff hstore (by decide) .default m
  obtain ⟨_, _, _, hwraps⟩ := accepted_end_le_limit_iff hload (by decide) .default m
  exact ⟨hstore, by decide, hbody, haccepted, (hlimit body hbody haccepted).mpr (by decide),
    hwraps (by decide) (by decide) (by decide)⟩

open Manipulation in
/-- An int at the last slot of 64 bits is beyond a limit of ten slots, and a method that loads it is
assembled under that limit. -/
theorem assembleMethod_passes_last_slot :
    let limits : Limits := ⟨10, 10, true⟩
    let m : Method := ⟨.object, "run", .isStatic, .void, []⟩
    let body := load .int 9223372036854775807
    body.isValid = true ∧ body.Holds (.load .int 9223372036854775807) ∧
      (Limits.inForce limits.maxLocals).toInt = 10 ∧
      (emitBody limits m body).failure? = none ∧
      (assembleMethod limits m body).result.toBool = true ∧
      ¬ (9223372036854775807 : Int64).toInt + Computational.int.size.slots.toNat ≤
        (Limits.inForce limits.maxLocals).toInt :=
  ⟨rfl, .atom, by decide, by decide, by decide, by decide⟩

end OperandStack
