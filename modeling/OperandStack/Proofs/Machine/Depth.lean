import OperandStack.Proofs.Machine.Atoms

/-!
# The depth machine

A machine that only counts the slots on the stack. An effect accounts for a piece of
code if its net is the change of the depth over the code and its peak the largest
rise on the way. Effects are 64-bit numbers: the net is right up to wrapping, the
peak as long as no stretch of the code moves the depth by more than fits.
-/

namespace OperandStack

/-- The change of the depth by a step. -/
def Step.depthChange? (s : Step) : Option Int := s.action?.map Action.depthChange

/-- The depth after running steps from a depth. -/
def depthAfter? (depth : Int) : List Step → Option Int
  | [] => some depth
  | s :: rest => s.depthChange?.bind fun change => depthAfter? (depth + change) rest

namespace Depth

/-- The largest depth over the start on the way through changes of the depth. -/
def highest : List Int → Int
  | [] => 0
  | change :: rest => max 0 (change + highest rest)

theorem highest_nonneg (changes : List Int) : 0 ≤ highest changes := by
  cases changes with
  | nil => exact Int.le_refl 0
  | cons change rest => exact Int.le_max_left 0 _

/-- The second part starts at the depth where the first one ends. -/
theorem highest_append (first second : List Int) :
    highest (first ++ second) = max (highest first) (first.sum + highest second) := by
  induction first with
  | nil =>
    have h := highest_nonneg second
    simp only [List.nil_append, highest, List.sum_nil]
    omega
  | cons change rest ih =>
    simp only [List.cons_append, highest, List.sum_cons, ih]
    omega

/-- Some stretch from the start reaches the largest depth. -/
theorem exists_take_sum_eq_highest (changes : List Int) :
    ∃ n, (changes.take n).sum = highest changes := by
  induction changes with
  | nil => exact ⟨0, rfl⟩
  | cons change rest ih =>
    obtain ⟨n, hn⟩ := ih
    by_cases h : 0 ≤ change + highest rest
    · refine ⟨n + 1, ?_⟩
      rw [List.take_succ_cons, List.sum_cons, hn, highest]
      omega
    · refine ⟨0, ?_⟩
      rw [List.take_zero, List.sum_nil, highest]
      omega

/-- No stretch from the start comes higher. -/
theorem take_sum_le_highest (changes : List Int) (n : Nat) :
    (changes.take n).sum ≤ highest changes := by
  induction changes generalizing n with
  | nil => simp [highest]
  | cons change rest ih =>
    cases n with
    | zero => exact highest_nonneg _
    | succ n =>
      have hrest := ih n
      rw [List.take_succ_cons, List.sum_cons, highest]
      omega

/-- Whether no stretch of changes moves the depth by more than half of what a 64-bit number
holds. -/
def Fits (changes : List Int) : Prop :=
  ∀ stretch, stretch <:+: changes → -2 ^ 62 ≤ stretch.sum ∧ stretch.sum ≤ 2 ^ 62

/-- A part of changes that fit fits. -/
theorem Fits.of_infix {changes part : List Int} (h : Fits changes) (hpart : part <:+: changes) :
    Fits part :=
  fun stretch hstretch => h stretch (hstretch.trans hpart)

/-- Whether an effect accounts for changes of the depth; the peak may be too large by some
slack. -/
structure Accounts (slack : Nat) (changes : List Int) (e : StackEffect) : Prop where
  net_eq : e.net = Int64.ofInt changes.sum
  peak_bounds : Fits changes →
    highest changes ≤ e.peak.toInt ∧ e.peak.toInt ≤ highest changes + slack

theorem toInt_max (a b : Int64) : (max a b).toInt = max a.toInt b.toInt := by
  change (if a ≤ b then b else a).toInt = _
  split
  · next h =>
    rw [Int64.le_iff_toInt_le] at h
    omega
  · next h =>
    rw [Int64.le_iff_toInt_le] at h
    omega

/-- As long as the changes fit, the net of an effect that accounts for them has not wrapped. -/
theorem Accounts.toInt_net {slack : Nat} {changes : List Int} {e : StackEffect}
    (h : Accounts slack changes e) (hfits : Fits changes) : e.net.toInt = changes.sum := by
  obtain ⟨hlow, hhigh⟩ := hfits changes List.infix_rfl
  rw [h.net_eq]
  exact Int64.toInt_ofInt_of_le (by omega) (by omega)

/-- Code that changes nothing. -/
theorem Accounts.nil (slack : Nat) : Accounts slack [] .zero := by
  refine ⟨rfl, fun _ => ?_⟩
  have hzero : StackEffect.zero.peak.toInt = 0 := by decide
  rw [hzero, highest]
  omega

/-- A single change. -/
theorem Accounts.single {slack : Nat} {change : Int} {e : StackEffect}
    (hnet : e.net = Int64.ofInt change)
    (hpeak : -2 ^ 62 ≤ change → change ≤ 2 ^ 62 →
      max 0 change ≤ e.peak.toInt ∧ e.peak.toInt ≤ max 0 change + slack) :
    Accounts slack [change] e := by
  have hsum : [change].sum = change := by simp
  have hhighest : highest [change] = max 0 change := by simp [highest]
  refine ⟨by rw [hsum, hnet], fun hfits => ?_⟩
  obtain ⟨hlow, hhigh⟩ := hfits [change] List.infix_rfl
  rw [hsum] at hlow hhigh
  rw [hhighest]
  exact hpeak hlow hhigh

/-- Effects in turn account for code in turn. -/
theorem Accounts.append {slack : Nat} (hslack : slack ≤ 2) {xs ys : List Int} {e f : StackEffect}
    (he : Accounts slack xs e) (hf : Accounts slack ys f) :
    Accounts slack (xs ++ ys) (e.followedBy f) := by
  refine ⟨?_, fun hfits => ?_⟩
  · rw [StackEffect.followedBy, he.net_eq, hf.net_eq, ← Int64.ofInt_add, List.sum_append]
  · have hxs := hfits.of_infix (List.prefix_append xs ys).isInfix
    have hys := hfits.of_infix (List.suffix_append xs ys).isInfix
    obtain ⟨hfirst_low, hfirst_high⟩ := he.peak_bounds hxs
    obtain ⟨hsecond_low, hsecond_high⟩ := hf.peak_bounds hys
    have hnonneg := highest_nonneg ys
    -- The highest point of the second piece ends a stretch that starts with the first piece, so
    -- the sum of the first net and the second peak cannot wrap around.
    obtain ⟨n, hn⟩ := exists_take_sum_eq_highest ys
    obtain ⟨_, htop⟩ := hfits (xs ++ ys.take n)
      ((List.prefix_append_right_inj xs).mpr (List.take_prefix n ys)).isInfix
    obtain ⟨hbottom, _⟩ := hxs xs List.infix_rfl
    rw [List.sum_append, hn] at htop
    have hsum : (e.net + f.peak).toInt = xs.sum + f.peak.toInt := by
      rw [Int64.toInt_add, he.toInt_net hxs]
      exact Int.bmod_eq_of_le (by omega) (by omega)
    rw [StackEffect.followedBy, toInt_max, hsum, highest_append]
    omega

/-- More slack is allowed where less is. -/
theorem Accounts.mono {slack slack' : Nat} (hslack : slack ≤ slack') {changes : List Int}
    {e : StackEffect} (h : Accounts slack changes e) : Accounts slack' changes e := by
  refine ⟨h.net_eq, fun hfits => ?_⟩
  obtain ⟨hlow, hhigh⟩ := h.peak_bounds hfits
  omega

/-- An effect whose peak is the larger of zero and its net. -/
theorem Accounts.ofNet {e : StackEffect} {change : Int} (hnet : e.net = Int64.ofInt change)
    (hpeak : e.peak = max 0 e.net) : Accounts 0 [change] e := by
  refine .single hnet fun hlow hhigh => ?_
  have hzero : (0 : Int64).toInt = 0 := by decide
  rw [hpeak, toInt_max, hzero, hnet, Int64.toInt_ofInt_of_le (by omega) (by omega)]
  omega

theorem accounts_unchanged : Accounts 0 [0] .zero := .ofNet (by decide) (by decide)

/-- Pushing a value raises the depth by its slots. -/
theorem accounts_pushed (s : ValueSize) : Accounts 0 [(s.slots.toNat : Int)] s.pushed := by
  have hslots := s.slots.toNat_lt
  have hdepth : s.depth.toInt = s.slots.toNat := Int64.toInt_ofNat_of_lt (by omega)
  refine .single rfl fun _ _ => ?_
  rw [ValueSize.pushed, hdepth]
  omega

/-- Popping a value lowers it by as many. -/
theorem accounts_popped (s : ValueSize) : Accounts 0 [-(s.slots.toNat : Int)] s.popped := by
  have hnet : s.popped.net = Int64.ofInt (-(s.slots.toNat : Int)) := by
    rw [Int64.ofInt_neg]
    rfl
  have hpeak : s.popped.peak.toInt = 0 := rfl
  refine .single hnet fun _ _ => ?_
  rw [hpeak]
  omega

end Depth

open Depth

/-- A call replaces the slots of the receiver and of the arguments by those of the result. -/
theorem Method.depthChange_call (m : Method) :
    (Action.exchange (m.parameterSorts.reverse ++ m.receiver) m.returns.sort?.toList).depthChange =
      (m.returns.size.slots.toNat : Int) - m.slots := by
  rw [Action.depthChange, m.returns.slotsOf_sort?, Computational.slotsOf_append,
    Computational.slotsOf_reverse, parameterSorts, slotsOf_sorts, m.slotsOf_receiver, slots,
    parameterSlots, Nat.add_comm]

/-- By how much the peak of an atom may be too large: the element of an array is counted on top of
the array and the index that it replaces. -/
def Atom.slack : Atom → Nat
  | loadElement _ => 2
  | _ => 0

/-- The effect of a regular atom accounts for its actions. -/
theorem Atom.accounts {a : Atom} (h : a.Regular) :
    Accounts a.slack (a.actions.map Action.depthChange) a.effect := by
  cases a with
  | push l =>
    have hslots : (Action.push l.sort).depthChange = l.size.slots.toNat := by cases l <;> rfl
    rw [actions, List.map_singleton, hslots]
    exact accounts_pushed l.size
  | duplicate size =>
    simp only [actions]
    split
    · next hzero =>
      subst hzero
      exact .nil 0
    · exact accounts_pushed size
  | duplicateUnder size under => exact accounts_pushed size
  | discard size =>
    simp only [actions]
    split
    · next hzero =>
      subst hzero
      exact .nil 0
    · exact accounts_popped size
  | throwTop => exact accounts_popped .single
  | convert c => cases c <;> exact .ofNet (by decide) (by decide)
  | box p => cases p <;> exact .ofNet (by decide) (by decide)
  | unbox p => cases p <;> exact .ofNet (by decide) (by decide)
  | cast t => exact accounts_unchanged
  | readField f =>
    obtain ⟨c, hc, _⟩ := f.exists_sort h
    simp only [effect, actions, hc, TypeDesc.size_of_sort? hc, Field.receiver, Field.receiverSlots]
    cases f.isStatic <;> cases c <;> exact .ofNet (by decide) (by decide)
  | writeField f =>
    obtain ⟨c, hc, _⟩ := f.exists_sort h
    simp only [effect, actions, hc, TypeDesc.size_of_sort? hc, Field.receiver, Field.receiverSlots]
    cases f.isStatic <;> cases c <;> exact .ofNet (by decide) (by decide)
  | invoke i =>
    refine .ofNet ?_ rfl
    rw [i.method.depthChange_call, Int64.ofInt_sub]
    rfl
  | load c slot => exact accounts_pushed c.size
  | store c slot => exact accounts_popped c.size
  | increment slot delta => exact accounts_unchanged
  | giveBack c =>
    cases c with
    | none => exact accounts_popped .zero
    | some c => exact accounts_popped c.size
  | create t => exact accounts_pushed .single
  | createArray c => exact accounts_unchanged
  | loadElement c =>
    simp only [slack, effect, actions, c.size_eq]
    cases c.sort <;> exact .single (by decide) fun _ _ => by decide
  | storeElement c =>
    simp only [slack, effect, actions, c.size_eq]
    cases c.sort <;> exact .ofNet (by decide) (by decide)
  | arrayLength => exact accounts_unchanged

end OperandStack
