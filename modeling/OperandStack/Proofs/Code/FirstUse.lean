import Mathlib.Data.List.Nodup
import OperandStack.Code.Recording

/-!
# First uses

Recordings and constant pools keep everything they are given once, in the order of
first use. Both do so by looking each element up before they put it at the end. The
outcome is the list of all elements without its later duplicates, and it goes along
with every selection that keeps different elements apart.
-/

namespace OperandStack

section FirstUse

variable {α β : Type} [DecidableEq α] [DecidableEq β]

/-- A list with an element at its end, unless the list has it already. -/
def noteNew (known : List α) (a : α) : List α := if a ∈ known then known else known ++ [a]

theorem mem_noteNew {known : List α} {a b : α} : b ∈ noteNew known a ↔ b ∈ known ∨ b = a := by
  unfold noteNew
  split
  · next ha =>
    constructor
    · exact Or.inl
    · rintro (hb | rfl)
      · exact hb
      · exact ha
  · simp

/-- No element is lost, and none is made up. -/
theorem mem_foldl_noteNew {known xs : List α} {b : α} :
    b ∈ xs.foldl noteNew known ↔ b ∈ known ∨ b ∈ xs := by
  induction xs generalizing known with
  | nil => simp
  | cons a xs ih =>
    rw [List.foldl_cons, ih, mem_noteNew, List.mem_cons]
    tauto

/-- An element that is known already is not noted again. -/
theorem nodup_noteNew {known : List α} (h : known.Nodup) (a : α) : (noteNew known a).Nodup := by
  unfold noteNew
  split
  · exact h
  · next ha => exact List.nodup_append.mpr ⟨h, List.nodup_singleton a, by grind⟩

/-- However many elements are noted, none comes twice. -/
theorem nodup_foldl_noteNew {known : List α} (h : known.Nodup) (xs : List α) :
    (xs.foldl noteNew known).Nodup := by
  induction xs generalizing known with
  | nil => exact h
  | cons a xs ih => exact ih (nodup_noteNew h a)

/-- Elements without their later duplicates, behind those that were there before. -/
theorem foldl_noteNew_eq (known xs : List α) :
    xs.foldl noteNew known = known ++ (xs.removeAll known).eraseDups := by
  induction xs generalizing known with
  | nil => simp
  | cons a xs ih =>
    rw [List.foldl_cons, ih, List.cons_removeAll]
    unfold noteNew
    by_cases ha : a ∈ known
    · simp [ha]
    · have hrest : xs.removeAll (known ++ [a]) =
          (xs.removeAll known).filter fun b => !b == a := by
        simp only [List.removeAll, List.filter_filter]
        congr 1
        funext b
        simp [Bool.and_comm, beq_eq_decide]
      simp [ha, hrest, List.eraseDups_cons]

/-- From nothing on, the elements are those of the list without later duplicates. -/
theorem foldl_noteNew_nil (xs : List α) : xs.foldl noteNew [] = xs.eraseDups := by
  simp [foldl_noteNew_eq, List.removeAll]

/-- A selection that keeps different elements apart may be made before or after. -/
theorem filterMap_foldl_noteNew {f : α → Option β}
    (hf : ∀ a a' b, f a = some b → f a' = some b → a = a') (known xs : List α) :
    (xs.foldl noteNew known).filterMap f = (xs.filterMap f).foldl noteNew (known.filterMap f) := by
  have hstep : ∀ (known : List α) (a : α), (noteNew known a).filterMap f =
      (f a).toList.foldl noteNew (known.filterMap f) := by
    intro known a
    cases hfa : f a with
    | none =>
      unfold noteNew
      split <;> simp [hfa]
    | some b =>
      have hmem : b ∈ known.filterMap f ↔ a ∈ known := by
        rw [List.mem_filterMap]
        constructor
        · rintro ⟨a', ha', hb⟩
          exact hf a a' b hfa hb ▸ ha'
        · intro ha
          exact ⟨a, ha, hfa⟩
      unfold noteNew
      by_cases ha : a ∈ known <;> simp [hfa, ha, hmem, -List.mem_filterMap]
  induction xs generalizing known with
  | nil => rfl
  | cons a xs ih =>
    rw [List.foldl_cons, ih, hstep, ← List.foldl_append]
    cases hfa : f a <;> simp [hfa]

/-- Leaving out elements commutes with noting them. -/
theorem filter_foldl_noteNew (p : α → Bool) (known xs : List α) :
    (xs.foldl noteNew known).filter p = (xs.filter p).foldl noteNew (known.filter p) := by
  have hguard : ∀ a a' b : α, Option.guard p a = some b → Option.guard p a' = some b → a = a' := by
    intro a a' b ha ha'
    rw [Option.guard_eq_some_iff] at ha ha'
    exact ha.1.trans ha'.1.symm
  simpa only [List.filterMap_eq_filter] using filterMap_foldl_noteNew hguard known xs

end FirstUse

end OperandStack
