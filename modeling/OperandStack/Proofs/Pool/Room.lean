import OperandStack.Proofs.Pool.Calls

/-!
# Pools with room

Work on a pool fails where an index or a text is too large. As long as the texts fit, a
number of free indices can be named for each call that is enough for it, whatever the pool
holds already.
-/

namespace OperandStack

open ConstantPool

namespace ConstantPool

theorem classFileSize_le (c : Char) : classFileSize c ≤ 6 := by
  unfold classFileSize
  dsimp only
  split_ifs <;> decide

theorem sum_classFileSize_le (cs : List Char) : (cs.map classFileSize).sum ≤ 6 * cs.length := by
  induction cs with
  | nil => exact Nat.le_refl 0
  | cons c cs ih =>
    have hc := classFileSize_le c
    rw [List.map_cons, List.sum_cons, List.length_cons]
    omega

/-- No character takes more than six bytes. -/
theorem classFileLength_le (s : String) : classFileLength s ≤ 6 * s.toList.length := by
  rw [classFileLength_eq_sum]
  exact sum_classFileSize_le s.toList

end ConstantPool

namespace Pooling

variable {α β : Type}

/-- Whether work succeeds on every pool with so many free indices, and takes up no more of them. -/
def Needs (work : Pooling α) (room : Nat) : Prop :=
  ∀ pool : ConstantPool, pool.count + room ≤ maxIndex + 1 →
    ∃ a after, work.on pool = (.ok a, after) ∧ after.count ≤ pool.count + room

/-- The second part finds the room that the first one leaves. -/
theorem Needs.bind {work : Pooling α} {next : α → Pooling β} {first second : Nat}
    (hwork : work.Needs first) (hnext : ∀ a, (next a).Needs second) :
    (work >>= next).Needs (first + second) := by
  intro pool hroom
  obtain ⟨a, middle, hrun, hmiddle⟩ := hwork pool (by omega)
  obtain ⟨b, after, hrest, hafter⟩ := hnext a middle (by omega)
  refine ⟨b, after, ?_, by omega⟩
  rw [on_bind, hrun]
  exact hrest

/-- An entry that is known takes no room, and a new one takes its slots. -/
theorem needs_add (entry : PoolEntry) : (add entry).Needs entry.slots := by
  intro pool hroom
  rw [on_add]
  cases pool.index[entry]? with
  | some k => exact ⟨k, pool, rfl, Nat.le_add_right _ _⟩
  | none =>
    have hfits : ¬ maxIndex < pool.count + entry.slots - 1 := by omega
    dsimp only
    rw [if_neg hfits]
    exact ⟨_, _, rfl, Nat.le_refl _⟩

/-- A text takes one entry at most. -/
theorem needs_utf8 {text : String} (h : classFileLength text ≤ 65535) : (utf8 text).Needs 1 := by
  have hadd : utf8 text = add (.utf8 text) := by
    unfold utf8
    dsimp only
    rw [if_neg (Nat.not_lt.mpr h)]
  rw [hadd]
  exact needs_add (.utf8 text)

/-- A class takes one more for itself. -/
theorem needs_classRef {name : String} (h : classFileLength name ≤ 65535) :
    (classRef name).Needs 2 :=
  (needs_utf8 h).bind fun _ => needs_add (.classRef name)

/-- A name and type takes one for each text and one for itself. -/
theorem needs_nameAndType {name descriptor : String} (hname : classFileLength name ≤ 65535)
    (hdescriptor : classFileLength descriptor ≤ 65535) : (nameAndType name descriptor).Needs 3 :=
  (needs_utf8 hname).bind fun _ =>
    (needs_utf8 hdescriptor).bind fun _ => needs_add (.nameAndType name descriptor)

/-- A method needs room for its owner, its name with descriptor, and itself. -/
theorem needs_method {owner name descriptor : String} (ofInterface : Bool)
    (howner : classFileLength owner ≤ 65535) (hname : classFileLength name ≤ 65535)
    (hdescriptor : classFileLength descriptor ≤ 65535) :
    (method owner name descriptor ofInterface).Needs 6 := by
  cases ofInterface <;>
    exact (needs_classRef howner).bind fun _ =>
      (needs_nameAndType hname hdescriptor).bind fun _ => needs_add _

end Pooling

end OperandStack
