import Mathlib.Logic.Relation
import Mathlib.Order.WellFounded
import OperandStack.Type.Assignable

/-!
# Hierarchies of types

A type leads to others through super classes and interfaces, and no way leads back. A
hierarchy is a collection of declared types that is closed upwards and has one type for
each name.
-/

namespace OperandStack

namespace TypeDesc

/-- The types directly above a type: its super class, and then its interfaces. -/
def parents (t : TypeDesc) : List TypeDesc := t.superClass?.toList ++ t.interfaces

/-- Whether a path of super classes and interfaces leads from a type to another one. -/
def Reaches : TypeDesc → TypeDesc → Prop := Relation.ReflTransGen fun t u => u ∈ t.parents

variable {t u : TypeDesc}

/-- The parents of a declared type are its super class and its interfaces. -/
theorem mem_parents_declared {name : String} {modifiers : Modifiers} {superClass : Option TypeDesc}
    {interfaces : List TypeDesc} :
    u ∈ (declared name modifiers superClass interfaces).parents ↔
      u ∈ superClass ∨ u ∈ interfaces := by
  simp [parents, superClass?, TypeDesc.interfaces]

/-- Declared types are larger than what they are declared with. -/
theorem sizeOf_lt_of_mem_parents {name : String} {modifiers : Modifiers}
    {superClass : Option TypeDesc} {interfaces : List TypeDesc}
    (h : u ∈ (declared name modifiers superClass interfaces).parents) :
    sizeOf u < sizeOf (declared name modifiers superClass interfaces) := by
  rw [declared.sizeOf_spec]
  rcases mem_parents_declared.mp h with hsuper | hinterface
  · rw [Option.mem_def.mp hsuper, Option.some.sizeOf_spec]
    omega
  · have hlt := List.sizeOf_lt_of_mem hinterface
    omega

/-- No type stands above itself. -/
theorem wellFounded_parents : WellFounded fun u t : TypeDesc => u ∈ t.parents := by
  have hobject : Acc (fun u t : TypeDesc => u ∈ t.parents) object := ⟨_, fun _ h => nomatch h⟩
  have hbelow : ∀ t : TypeDesc, t.parents = [object] →
      Acc (fun u t : TypeDesc => u ∈ t.parents) t := by
    intro t hparents
    refine ⟨_, fun u hu => ?_⟩
    rw [hparents, List.mem_singleton] at hu
    rwa [hu]
  -- What is above a declared type is smaller. Above an array are three built-in types, whatever the
  -- size of its component.
  refine ⟨fun t => ?_⟩
  induction hsize : sizeOf t using Nat.strong_induction_on generalizing t with
  | _ n ih =>
    refine ⟨_, fun u hu => ?_⟩
    cases t with
    | void => cases hu
    | primitive p => cases hu
    | declared name modifiers superClass interfaces =>
      have hsmaller := sizeOf_lt_of_mem_parents hu
      exact ih (sizeOf u) (hsize ▸ hsmaller) u rfl
    | array component =>
      have htop : u = object ∨ u = cloneable ∨ u = serializable := by
        simpa [parents, superClass?, interfaces] using hu
      rcases htop with rfl | rfl | rfl
      · exact hobject
      · exact hbelow cloneable rfl
      · exact hbelow serializable rfl

/-- There is no way back. -/
theorem reaches_antisymm (htu : t.Reaches u) (hut : u.Reaches t) : t = u := by
  rcases Relation.reflTransGen_iff_eq_or_transGen.mp htu with heq | hup
  · exact heq.symm
  · have hcycle := (hup.trans_left hut).swap
    exact absurd hcycle (wellFounded_parents.transGen.irrefl.irrefl t)

/-- Declared types that are closed upwards, with one type for each name. -/
structure IsHierarchy (types : List TypeDesc) : Prop where
  declared : ∀ t ∈ types, ∃ name modifiers superClass interfaces,
    t = declared name modifiers superClass interfaces
  parents_mem : ∀ t ∈ types, ∀ u ∈ t.parents, u ∈ types
  eq_of_name : ∀ t ∈ types, ∀ u ∈ types, t.name = u.name → t = u

namespace IsHierarchy

variable {types : List TypeDesc}

/-- A hierarchy is closed upwards. -/
theorem reaches_mem (h : IsHierarchy types) (ht : t ∈ types) (hreach : t.Reaches u) :
    u ∈ types := by
  induction hreach with
  | refl => exact ht
  | tail _ hparent ih => exact h.parents_mem _ ih _ hparent

end IsHierarchy

end TypeDesc

end OperandStack
