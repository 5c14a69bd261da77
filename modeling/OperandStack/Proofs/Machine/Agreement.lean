import OperandStack.Proofs.Emission.Depth
import OperandStack.Proofs.Machine.Sorts

/-!
# The machines agree

The machine of sorts knows all that the depth machine knows. Where it runs on, the depth
machine runs as well and counts the slots of the values on its stack. So an effect that
accounts for a piece of code has the difference of the sorts before and after for its net.
-/

namespace OperandStack

open Computational (slotsOf slotsOf_append)

namespace SortState

/-- What can be taken from a stack lies on top of it. -/
theorem eq_append_of_popAll? {sorts stack rest : List Computational}
    (h : popAll? sorts stack = some rest) : stack = sorts ++ rest := by
  induction sorts generalizing stack with
  | nil =>
    cases h
    rfl
  | cons c sorts ih =>
    cases stack with
    | nil => cases h
    | cons d stack =>
      rw [popAll?] at h
      split at h
      · next hsort => rw [hsort, List.cons_append, ih h]
      · cases h

/-- What is taken from the top of a stack has the slots that were asked for. -/
theorem eq_append_of_takeSlots? {slots : Nat} {stack taken rest : List Computational}
    (h : takeSlots? slots stack = some (taken, rest)) :
    stack = taken ++ rest ∧ slotsOf taken = slots := by
  induction stack generalizing slots taken with
  | nil =>
    rw [takeSlots?] at h
    split at h
    · next hzero =>
      cases h
      exact ⟨rfl, hzero.symm⟩
    · cases h
  | cons c stack ih =>
    rw [takeSlots?] at h
    split at h
    · next hzero =>
      cases h
      exact ⟨rfl, hzero.symm⟩
    · split at h
      · next hfits =>
        obtain ⟨⟨above, left⟩, htake, heq⟩ := Option.map_eq_some_iff.mp h
        cases heq
        obtain ⟨rfl, hslots⟩ := ih htake
        have hcons : slotsOf (c :: above) = c.size.slots.toNat + slotsOf above := rfl
        exact ⟨rfl, by omega⟩
      · cases h

end SortState

open SortState

/-- An action after which a run goes on changes the slots on the stack as its depth says. -/
theorem Action.slotsOf_of_perform? {action : Action} {s s' : SortState}
    (h : action.perform? s = some (.running s')) :
    (slotsOf s'.stack : Int) = slotsOf s.stack + action.depthChange := by
  have hsingle : ∀ c : Computational, slotsOf [c] = c.size.slots.toNat := fun c => by simp [slotsOf]
  cases action with
  | exchange pops pushes =>
    obtain ⟨rest, hpop, heq⟩ := Option.map_eq_some_iff.mp h
    cases heq
    rw [eq_append_of_popAll? hpop, slotsOf_append, slotsOf_append, depthChange]
    omega
  | copy slots under =>
    obtain ⟨⟨top, below⟩, htop, hunder⟩ := Option.bind_eq_some_iff.mp h
    obtain ⟨⟨middle, rest⟩, hmiddle, heq⟩ := Option.map_eq_some_iff.mp hunder
    cases heq
    obtain ⟨hstack, hslots⟩ := eq_append_of_takeSlots? htop
    obtain ⟨hbelow, _⟩ := eq_append_of_takeSlots? hmiddle
    rw [hstack, hbelow]
    simp only [slotsOf_append, depthChange]
    omega
  | drop slots =>
    obtain ⟨⟨top, rest⟩, htop, heq⟩ := Option.map_eq_some_iff.mp h
    cases heq
    obtain ⟨hstack, hslots⟩ := eq_append_of_takeSlots? htop
    simp only [hstack, slotsOf_append, depthChange]
    omega
  | load c slot =>
    rw [perform?] at h
    split at h
    · cases h
      have hcons : slotsOf (c :: s.stack) = slotsOf [c] + slotsOf s.stack :=
        slotsOf_append [c] s.stack
      rw [hcons, hsingle, depthChange]
      omega
    · cases h
  | store c slot =>
    obtain ⟨rest, hpop, heq⟩ := Option.map_eq_some_iff.mp h
    cases heq
    simp only [eq_append_of_popAll? hpop, slotsOf_append, hsingle, depthChange]
    omega
  | increment slot =>
    rw [perform?] at h
    split at h
    · cases h
      exact (Int.add_zero _).symm
    · cases h
  | leave result =>
    obtain ⟨rest, _, heq⟩ := Option.map_eq_some_iff.mp h
    cases heq
  | raise =>
    obtain ⟨rest, _, heq⟩ := Option.map_eq_some_iff.mp h
    cases heq

/-- The depth machine keeps to the slots of the machine of sorts. -/
theorem SortState.depthAfter?_of_run? {code : List Step} {s s' : SortState}
    (h : s.run? code = some (.running s')) :
    depthAfter? (slotsOf s.stack) code = some (slotsOf s'.stack : Int) := by
  induction code generalizing s with
  | nil =>
    cases h
    rfl
  | cons step rest ih =>
    rw [run?] at h
    split at h
    · next middle hstep =>
      obtain ⟨action, haction, hperform⟩ := Option.bind_eq_some_iff.mp hstep
      have hslots := Action.slotsOf_of_perform? hperform
      rw [depthAfter?, Step.depthChange?, haction, Option.map_some, Option.bind_some, ← hslots]
      exact ih h
    · next hended _ =>
      split at h
      · cases h
        exact absurd rfl (hended s')
      · cases h
    · cases h

/-- The net of an effect that accounts for code is the difference of the slots that the code
leaves and finds. -/
theorem Moves.net_eq {locals : Nat → Option Computational} {code : List Step}
    {before after : List Computational} {slack : Nat} {e : StackEffect}
    (h : Moves locals code before after) (htracks : Tracks slack code e) :
    e.net = Int64.ofInt ((slotsOf after : Int) - slotsOf before) := by
  obtain ⟨changes, hchanges, haccounts⟩ := htracks
  have hrun := h []
  rw [List.append_nil, List.append_nil] at hrun
  have hdepth : depthAfter? (slotsOf before) code = some (slotsOf after : Int) :=
    SortState.depthAfter?_of_run? hrun
  rw [depthAfter?_eq hchanges, Option.some.injEq] at hdepth
  rw [haccounts.net_eq]
  congr 1
  omega

end OperandStack
