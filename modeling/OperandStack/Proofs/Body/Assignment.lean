import Mathlib.Logic.Relation
import OperandStack.Proofs.Body.Conversion
import OperandStack.Proofs.Machine.Agreement

/-!
# Assignments between types

Every valid assignment turns a value of its source into a value of its target, and its
net is the difference of their slots. A dynamic assignment does what a static one does
wherever that is valid. It is refused only where a primitive sort, bare or in its
wrapper, would have to widen to one that is not ahead of it.
-/

namespace OperandStack

namespace Primitive

/-- The widenings that all others are made of. -/
inductive WidensDirectly : Primitive → Primitive → Prop where
  | byteToShort : WidensDirectly byte short
  | shortToInt : WidensDirectly short int
  | charToInt : WidensDirectly char int
  | intToLong : WidensDirectly int long
  | longToFloat : WidensDirectly long float
  | floatToDouble : WidensDirectly float double

/-- Whether the values of a primitive sort widen to another one, in any number of steps. -/
def Widens : Primitive → Primitive → Prop := Relation.ReflTransGen WidensDirectly

end Primitive

namespace TypeDesc

variable {t u : TypeDesc} {p q : Primitive}

/-- Types of one descriptor are of one kind. -/
theorem kind_eq_of_same (h : t.same u = true) : t.kind = u.kind := by
  simp only [same, Bool.and_eq_true, decide_eq_true_eq] at h
  exact h.1

/-- Names tell the wrappers apart. -/
theorem wrapper_name_inj (h : (wrapper p).name = (wrapper q).name) : p = q := by
  have hnodup : (Primitive.all.map fun p => (wrapper p).name).Nodup := by decide
  exact List.inj_on_of_nodup_map hnodup p.mem_all q.mem_all h

/-- A type is unwrapped exactly to the sort whose wrapper it is. -/
theorem unwrap?_eq_some_iff : t.unwrap? = some p ↔ (wrapper p).same t = true := by
  constructor
  · intro h
    exact List.find?_some (p := fun p => (wrapper p).same t) h
  · intro h
    obtain ⟨q, hq⟩ : ∃ q, t.unwrap? = some q :=
      Option.isSome_iff_exists.mp (List.find?_isSome.mpr ⟨p, p.mem_all, h⟩)
    have hsame := List.find?_some (p := fun p => (wrapper p).same t) hq
    simp only [same, Bool.and_eq_true, decide_eq_true_eq] at h hsame
    rw [hq, wrapper_name_inj (hsame.2.trans h.2.symm)]

end TypeDesc

namespace Manipulation

open TypeDesc (wrapper)

variable {source target : TypeDesc} {p q : Primitive}

/-- A further step ahead is as good as the steps before. -/
private theorem isValid_widenPrimitive_step {r : Primitive}
    (h : (widenPrimitive p q).isValid = true) (hstep : q.WidensDirectly r) :
    (widenPrimitive p r).isValid = true := by
  cases hstep <;> cases p <;> simp_all [widenPrimitive, isValid]

/-- The table of widenings holds what can be made of single steps. -/
theorem isValid_widenPrimitive_iff : (widenPrimitive p q).isValid = true ↔ p.Widens q := by
  constructor
  · intro h
    cases p <;> cases q <;>
      first
      | (simp [widenPrimitive, isValid] at h; done)
      | (repeat
          first
          | exact .refl
          | refine .head .byteToShort ?_
          | refine .head .shortToInt ?_
          | refine .head .charToInt ?_
          | refine .head .intToLong ?_
          | refine .head .longToFloat ?_
          | refine .head .floatToDouble ?_)
  · intro h
    induction h with
    | refl => cases p <;> simp [widenPrimitive, isValid]
    | tail _ hstep ih => exact isValid_widenPrimitive_step ih hstep

/-- A static assignment of references is valid only if nothing is to be done. -/
theorem assignReference_of_isValid (h : (assignReference source target false).isValid = true) :
    target.isAssignableFrom source = true ∧
      ∀ dynamic, assignReference source target dynamic = trivial := by
  by_cases hsub : target.isAssignableFrom source = true
  · exact ⟨hsub, fun dynamic => if_pos hsub⟩
  · rw [assignReference, if_neg hsub] at h
    cases h

/-- With a cast allowed, references can always be assigned. -/
theorem isValid_assignReference_dynamic (h : target.kind = .reference) :
    (assignReference source target true).isValid = true := by
  have href : target.isReference = true := by simp [TypeDesc.isReference, h]
  unfold assignReference
  split
  · rfl
  · rw [if_pos rfl, cast, if_pos href]
    rfl

/-- Every type has a default value, `void` included: it pushes nothing. -/
theorem isValid_pushDefault (t : TypeDesc) : (pushDefault t).isValid = true := by
  unfold pushDefault
  split <;> rfl

/-- Without a wrapper to unwrap only the dynamic assignment is valid. -/
theorem assignUnboxed_of_isValid (h : (assignUnboxed source q false).isValid = true) :
    assignUnboxed source q true = assignUnboxed source q false := by
  unfold assignUnboxed at h ⊢
  cases hunwrap : source.unwrap? with
  | some p => rfl
  | none =>
    rw [hunwrap] at h
    cases h

/-- Of the wrappers only those can be unboxed dynamically whose sort widens to the target. -/
theorem isValid_assignUnboxed_dynamic_iff : (assignUnboxed source q true).isValid = true ↔
    ∀ p, (wrapper p).same source = true → p.Widens q := by
  simp only [← TypeDesc.unwrap?_eq_some_iff, ← isValid_widenPrimitive_iff]
  unfold assignUnboxed
  cases hunwrap : source.unwrap? with
  | some p =>
    rw [isValid_compose, List.forall_mem_cons, List.forall_mem_singleton]
    constructor
    · rintro ⟨_, hwiden⟩ p' hp'
      cases hp'
      exact hwiden
    · intro hall
      exact ⟨rfl, hall p rfl⟩
  | none =>
    have hcast : (cast (wrapper q)).isValid = true := by cases q <;> rfl
    simp only [if_true, reduceCtorEq, false_implies, implies_true, iff_true]
    rw [isValid_compose, List.forall_mem_cons, List.forall_mem_singleton]
    exact ⟨hcast, rfl⟩

/-- Where a static assignment is valid, the dynamic one is the same. -/
theorem assign_dynamic_eq (h : (assign source target false).isValid = true) :
    assign source target true = assign source target false := by
  rcases source.kind_cases with hs | ⟨p, hs⟩ | hs <;>
    rcases target.kind_cases with ht | ⟨q, ht⟩ | ht <;>
    simp only [assign, hs, ht, Bool.false_eq_true, if_false] at h ⊢
  · cases h
  · cases h
  · have hsecond := (assignReference_of_isValid (isValid_compose_pair h).2).2
    rw [hsecond true, hsecond false]
  · exact assignUnboxed_of_isValid h
  · have hsame := (assignReference_of_isValid h).2
    rw [hsame true, hsame false]

/-- A dynamic assignment to anything but a primitive sort is valid. -/
theorem isValid_assign_dynamic (h : ∀ q, target.kind ≠ .primitive q) :
    (assign source target true).isValid = true := by
  rcases target.kind_cases with ht | ⟨q, ht⟩ | ht
  · rcases source.kind_cases with hs | ⟨p, hs⟩ | hs <;> simp only [assign, hs, ht] <;> rfl
  · exact absurd ht (h q)
  · rcases source.kind_cases with hs | ⟨p, hs⟩ | hs <;> simp only [assign, hs, ht, if_true]
    · exact isValid_pushDefault target
    · rw [isValid_compose, List.forall_mem_cons, List.forall_mem_singleton]
      exact ⟨rfl, isValid_assignReference_dynamic ht⟩
    · exact isValid_assignReference_dynamic ht

/-- A dynamic assignment to a primitive sort is valid unless it starts from a sort, bare or wrapped,
that does not widen. -/
theorem isValid_assign_dynamic_iff (ht : target.kind = .primitive q) :
    (assign source target true).isValid = true ↔
      ∀ p, source.kind = .primitive p ∨ (wrapper p).same source = true → p.Widens q := by
  have hwrapper : ∀ p, (wrapper p).same source = true → source.kind = .reference := by
    intro p hsame
    rw [← TypeDesc.kind_eq_of_same hsame]
    cases p <;> rfl
  rcases source.kind_cases with hs | ⟨p, hs⟩ | hs
  · have hvalid : (assign source target true).isValid = true := by
      simp only [assign, hs, ht, if_true]
      exact isValid_pushDefault target
    refine iff_of_true hvalid fun p hsource => ?_
    rcases hsource with hp | hp
    · rw [hs] at hp
      cases hp
    · rw [hwrapper p hp] at hs
      cases hs
  · have hassign : assign source target true = widenPrimitive p q := by simp only [assign, hs, ht]
    rw [hassign, isValid_widenPrimitive_iff]
    constructor
    · intro hwidens p' hsource
      rcases hsource with hp | hp
      · rw [hs] at hp
        cases hp
        exact hwidens
      · rw [hwrapper p' hp] at hs
        cases hs
    · intro hall
      exact hall p (Or.inl hs)
  · have hassign : assign source target true = assignUnboxed source q true := by
      simp only [assign, hs, ht]
    rw [hassign, isValid_assignUnboxed_dynamic_iff]
    constructor
    · intro hall p hsource
      rcases hsource with hp | hp
      · rw [hs] at hp
        cases hp
      · exact hall p hp
    · intro hall p hp
      exact hall p (Or.inr hp)

/-- A valid assignment, run where a value of the source is on top of the stack, or any stack if the
source is `void`, leaves a value of the target there, or nothing if it is `void`; every step finds
the sorts it asks for, and the local variables stay. Its net is the difference of the slots. A
static assignment between references emits nothing, and the target takes values of the source. -/
theorem assign_turns_source_into_target {dynamic : Bool}
    (h : (assign source target dynamic).isValid = true) :
    ∃ code effect, (assign source target dynamic).emit = (code, .ok effect) ∧
      (∀ rest locals, SortState.run? ⟨source.sort?.toList ++ rest, locals⟩ code.toList =
        some (.running ⟨target.sort?.toList ++ rest, locals⟩)) ∧
      effect.net.toInt = (target.size.slots.toNat : Int) - source.size.slots.toNat ∧
      (source.isReference = true → target.isReference = true → dynamic = false →
        code = #[] ∧ target.isAssignableFrom source = true) := by
  refine ⟨_, _, emit_eq h, fun rest locals => moves_assign h rest, ?_, ?_⟩
  · have hmoves : Moves (fun _ => none) (assign source target dynamic).steps source.sort?.toList
        target.sort?.toList := moves_assign h
    have hslots : ∀ t : TypeDesc, t.size.slots.toNat ≤ 2 := by
      intro t
      obtain hsize | hsize | hsize := t.size_usual <;> rw [hsize] <;> decide
    have hsource := hslots source
    have htarget := hslots target
    rw [hmoves.net_eq (Built.assign source target dynamic).tracks, TypeDesc.slotsOf_sort?,
      TypeDesc.slotsOf_sort?]
    exact Int64.toInt_ofInt_of_le (by omega) (by omega)
  · rintro hs ht rfl
    simp only [TypeDesc.isReference, decide_eq_true_eq] at hs ht
    have hassign : assign source target false = assignReference source target false := by
      simp only [assign, hs, ht]
    rw [hassign] at h
    obtain ⟨hsub, htrivial⟩ := assignReference_of_isValid h
    rw [hassign, htrivial false]
    exact ⟨rfl, hsub⟩

/-- The wrapper of ints is turned into a long above a float, and a text into a reference to the root
by nothing at all. -/
theorem assign_turns_source_into_target_integer :
    (assign (wrapper .int) (.primitive .long) false).isValid = true ∧
      (∃ code effect, (assign (wrapper .int) (.primitive .long) false).emit = (code, .ok effect) ∧
        SortState.run? ⟨[.reference, .float], fun _ => none⟩ code.toList =
          some (.running ⟨[.long, .float], fun _ => none⟩) ∧
        effect.net.toInt = 1) ∧
      (assign .string .object false).isValid = true ∧
      (∃ effect, (assign .string .object false).emit = (#[], .ok effect) ∧
        TypeDesc.object.isAssignableFrom .string = true) := by
  have hunboxed : (assign (wrapper .int) (.primitive .long) false).isValid = true := by decide
  have hroot : (assign .string .object false).isValid = true := by decide
  obtain ⟨code, effect, hemit, hrun, hnet, _⟩ := assign_turns_source_into_target hunboxed
  obtain ⟨none, effect', hemit', _, _, hstatic⟩ := assign_turns_source_into_target hroot
  obtain ⟨rfl, hsub⟩ := hstatic rfl rfl rfl
  exact ⟨hunboxed, ⟨code, effect, hemit, hrun [.float] _, hnet⟩, hroot, effect', hemit', hsub⟩

/-- A static assignment that is valid is what the dynamic one is, with the same steps and the same
effect wherever it is emitted. A dynamic assignment is refused exactly if the target is a primitive
sort, and the source is a sort, or the wrapper of one, that does not widen to it. -/
theorem assign_dynamic_extends_static (source target : TypeDesc) :
    ((assign source target false).isValid = true →
      (assign source target true).isValid = true ∧
      ∃ (code : List Step) (effect : StackEffect), ∀ before,
        (assign source target false).emitOnto before = (before ++ code, .ok effect) ∧
        (assign source target true).emitOnto before = (before ++ code, .ok effect)) ∧
    ((assign source target true).isValid = false ↔
      ∃ p q, target = .primitive q ∧
        (source = .primitive p ∨ (wrapper p).same source = true) ∧ ¬ p.Widens q) := by
  have hkind : ∀ (t : TypeDesc) (p : Primitive), t.kind = .primitive p ↔ t = .primitive p := by
    intro t p
    cases t <;> simp [TypeDesc.kind]
  constructor
  · intro h
    have hsame := assign_dynamic_eq h
    refine ⟨by rwa [hsame], _, _, fun before => ⟨emitOnto_eq _ h before, ?_⟩⟩
    rw [hsame]
    exact emitOnto_eq _ h before
  · constructor
    · intro hinvalid
      have hrefused : ¬ (assign source target true).isValid = true := Bool.eq_false_iff.mp hinvalid
      by_cases hprimitive : ∃ q, target.kind = .primitive q
      · obtain ⟨q, ht⟩ := hprimitive
        rw [isValid_assign_dynamic_iff ht] at hrefused
        push Not at hrefused
        obtain ⟨p, hsource, hwidens⟩ := hrefused
        rw [hkind] at ht hsource
        exact ⟨p, q, ht, hsource, hwidens⟩
      · exact absurd (isValid_assign_dynamic fun q hq => hprimitive ⟨q, hq⟩) hrefused
    · rintro ⟨p, q, ht, hsource, hwidens⟩
      rw [← hkind] at ht hsource
      refine Bool.eq_false_iff.mpr fun hvalid => hwidens ?_
      exact (isValid_assign_dynamic_iff ht).mp hvalid p hsource

/-- An int may be assigned to the root either way. The wrapper of longs cannot be unboxed to an int,
not even dynamically. -/
theorem assign_dynamic_extends_static_long :
    (assign (.primitive .int) .object false).isValid = true ∧
      (assign (.primitive .int) .object true).isValid = true ∧
      (assign (wrapper .long) (.primitive .int) true).isValid = false := by
  have hstatic : (assign (.primitive .int) .object false).isValid = true := by decide
  have hwidens : ¬ Primitive.Widens .long .int := by
    rw [← isValid_widenPrimitive_iff]
    decide
  have hboxed := (assign_dynamic_extends_static (.primitive .int) .object).1 hstatic
  have hnarrow := (assign_dynamic_extends_static (wrapper .long) (.primitive .int)).2
  refine ⟨hstatic, hboxed.1, hnarrow.mpr ⟨.long, .int, rfl, Or.inr ?_, hwidens⟩⟩
  exact TypeDesc.same_self _

end Manipulation

end OperandStack
