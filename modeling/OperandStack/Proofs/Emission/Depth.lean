import OperandStack.Proofs.Machine.Depth

/-!
# Effects account for what trees emit

The effect that the emission of a tree reports is folded together piece by piece at
every level of nesting. For trees that the library builds it agrees with a run of the
depth machine over the emitted steps.
-/

namespace OperandStack

open Depth

/-- Whether an effect accounts for steps, up to some slack in the peak. -/
def Tracks (slack : Nat) (code : List Step) (e : StackEffect) : Prop :=
  ∃ changes, code.map Step.depthChange? = changes.map some ∧ Accounts slack changes e

theorem Tracks.nil (slack : Nat) : Tracks slack [] .zero := ⟨[], rfl, .nil slack⟩

/-- Tracked pieces in turn are tracked together. The slack does not add up, as it lies in the peaks
and not in the nets. -/
theorem Tracks.append {slack : Nat} (hslack : slack ≤ 2) {first second : List Step}
    {e f : StackEffect} (he : Tracks slack first e) (hf : Tracks slack second f) :
    Tracks slack (first ++ second) (e.followedBy f) := by
  obtain ⟨xs, hxs, he⟩ := he
  obtain ⟨ys, hys, hf⟩ := hf
  refine ⟨xs ++ ys, ?_, he.append hslack hf⟩
  rw [List.map_append, List.map_append, hxs, hys]

/-- Every regular atom is tracked, up to the slack of its own. -/
theorem Atom.tracks {slack : Nat} {a : Atom} (h : a.Regular) (hslack : a.slack ≤ slack) :
    Tracks slack a.steps a.effect := by
  refine ⟨a.actions.map Action.depthChange, ?_, (Atom.accounts h).mono hslack⟩
  calc a.steps.map Step.depthChange?
      = (a.steps.map Step.action?).map (Option.map Action.depthChange) := by
        rw [List.map_map]
        rfl
    _ = (a.actions.map Action.depthChange).map some := by
        rw [Atom.steps_action? h, List.map_map, List.map_map]
        rfl

namespace Manipulation

variable {slack : Nat} (hslack : slack ≤ 2)
include hslack

mutual

/-- The effect of a tree of regular atoms accounts for its steps. -/
theorem tracks : (m : Manipulation) → m.Everywhere (fun a => a.Regular ∧ a.slack ≤ slack) →
    Tracks slack m.steps m.effect
  | trivial, _ => .nil slack
  | illegal, _ => .nil slack
  | atom a, h => by
    rw [Everywhere] at h
    exact a.tracks h.1 h.2
  | compound members, h => by
    rw [Everywhere] at h
    exact tracks_all members h (.nil slack)
  | arrayLiteral component elements, h => by
    rw [Everywhere] at h
    have hlength : Tracks slack (pushInt elements.length).steps (pushInt elements.length).effect :=
      Atom.tracks True.intro (Nat.zero_le slack)
    have hcreate : Tracks slack (Atom.createArray component).steps
        (Atom.createArray component).effect :=
      Atom.tracks True.intro (Nat.zero_le slack)
    have helements := tracks_elements elements h component 0 (hlength.append hslack hcreate)
    rw [List.append_assoc] at helements
    exact helements
  | custom .., h => by rw [Everywhere] at h; exact h.elim

/-- The members of a compound go on from an effect that tracks what came before. -/
theorem tracks_all : (ms : List Manipulation) →
    AllEverywhere (fun a => a.Regular ∧ a.slack ≤ slack) ms →
    ∀ {before : List Step} {done : StackEffect}, Tracks slack before done →
      Tracks slack (before ++ allSteps ms) (effectAfter done ms)
  | [], _, before, done, hdone => by
    rw [allSteps, effectAfter, List.append_nil]
    exact hdone
  | m :: rest, h, before, done, hdone => by
    rw [AllEverywhere] at h
    rw [allSteps, effectAfter, ← List.append_assoc]
    exact tracks_all rest h.2 (hdone.append hslack (tracks m h.1))

/-- So do the elements of an array, each with the steps that store it. -/
theorem tracks_elements : (ms : List Manipulation) →
    AllEverywhere (fun a => a.Regular ∧ a.slack ≤ slack) ms →
    ∀ (component : Component) (index : Nat) {before : List Step} {done : StackEffect},
      Tracks slack before done →
      Tracks slack (before ++ elementSteps component index ms)
        (elementEffectAfter component index done ms)
  | [], _, component, index, before, done, hdone => by
    rw [elementSteps, elementEffectAfter, List.append_nil]
    exact hdone
  | m :: rest, h, component, index, before, done, hdone => by
    rw [AllEverywhere] at h
    have hcopy : Tracks slack (Atom.duplicate .single).steps (Atom.duplicate .single).effect :=
      Atom.tracks (Or.inr (Or.inl rfl)) (Nat.zero_le slack)
    have hplace : Tracks slack (pushInt index).steps (pushInt index).effect :=
      Atom.tracks True.intro (Nat.zero_le slack)
    have hstore : Tracks slack (Atom.storeElement component).steps
        (Atom.storeElement component).effect :=
      Atom.tracks True.intro (Nat.zero_le slack)
    have hone := (((hdone.append hslack hcopy).append hslack hplace).append hslack
      (tracks m h.1)).append hslack hstore
    have hrest := tracks_elements rest h.2 component (index + 1) hone
    simp only [List.append_assoc] at hrest
    exact hrest

end

end Manipulation

/-- The depth machine adds up the changes. -/
theorem depthAfter?_eq {code : List Step} {changes : List Int}
    (h : code.map Step.depthChange? = changes.map some) (depth : Int) :
    depthAfter? depth code = some (depth + changes.sum) := by
  induction code generalizing changes depth with
  | nil =>
    cases changes with
    | nil => simp [depthAfter?]
    | cons change rest => cases h
  | cons s code ih =>
    cases changes with
    | nil => cases h
    | cons change rest =>
      rw [List.map_cons, List.map_cons, List.cons.injEq] at h
      rw [depthAfter?, h.1, Option.bind_some, ih h.2, List.sum_cons, Int.add_assoc]

/-- The depth after some of the steps is the sum of their changes. -/
theorem depthAfter?_take {code : List Step} {changes : List Int}
    (h : code.map Step.depthChange? = changes.map some) (n : Nat) :
    depthAfter? 0 (code.take n) = some (changes.take n).sum := by
  have htake : (code.take n).map Step.depthChange? = (changes.take n).map some := by
    rw [List.map_take, h, List.map_take]
  rw [depthAfter?_eq htake, Int.zero_add]

/-- Whether the depth stays where sums and differences of two depths fit into 64 bits. -/
def DepthFits (code : List Step) : Prop :=
  ∀ n ≤ code.length, ∀ d ∈ depthAfter? 0 (code.take n), -2 ^ 61 ≤ d ∧ d ≤ 2 ^ 61

instance (code : List Step) : Decidable (DepthFits code) :=
  inferInstanceAs (Decidable (∀ n ≤ code.length, _))

/-- A stretch of code moves the depth from the depth at its start to that at its end. -/
theorem DepthFits.fits {code : List Step} {changes : List Int} (hfits : DepthFits code)
    (h : code.map Step.depthChange? = changes.map some) : Fits changes := by
  have hlength : code.length = changes.length := by
    have hlengths := congrArg List.length h
    rwa [List.length_map, List.length_map] at hlengths
  have hbound : ∀ front back, changes = front ++ back →
      -2 ^ 61 ≤ front.sum ∧ front.sum ≤ 2 ^ 61 := by
    intro front back heq
    have hfront : changes.take front.length = front := by rw [heq, List.take_left]
    refine hfits front.length ?_ front.sum ?_
    · rw [hlength, heq, List.length_append]
      omega
    · rw [depthAfter?_take h, hfront]
      rfl
  rintro stretch ⟨front, back, heq⟩
  have hstart := hbound front (stretch ++ back) (by rw [← heq, List.append_assoc])
  have hend := hbound (front ++ stretch) back heq.symm
  rw [List.sum_append] at hend
  omega

/-- Whether a tree loads no element of an array. -/
def Manipulation.NoElementLoad (m : Manipulation) : Prop :=
  m.Everywhere fun a => ∀ c, a ≠ .loadElement c

/-- Every built tree is tracked with the slack of an element load. -/
theorem Manipulation.Built.tracks {m : Manipulation} (h : m.Built) : Tracks 2 m.steps m.effect := by
  refine Manipulation.tracks (Nat.le_refl 2) m (h.everywhere.combine ?_ h.everywhere)
  intro a hregular _
  refine ⟨hregular, ?_⟩
  cases a <;> simp [Atom.slack]

/-- Without element loads there is no slack. -/
theorem Manipulation.Built.tracks_exactly {m : Manipulation} (h : m.Built)
    (hloads : m.NoElementLoad) : Tracks 0 m.steps m.effect := by
  refine Manipulation.tracks (Nat.zero_le 2) m (h.everywhere.combine ?_ hloads)
  intro a hregular hload
  refine ⟨hregular, ?_⟩
  cases a with
  | loadElement c => exact absurd rfl (hload c)
  | _ => exact Nat.le_refl 0

/-- An effect with slack bounds the depth after every number of steps. -/
theorem Tracks.le_peak {slack : Nat} {code : List Step} {e : StackEffect}
    (h : Tracks slack code e) (hfits : DepthFits code) (n : Nat) :
    ∃ d, depthAfter? 0 (code.take n) = some d ∧ d ≤ e.peak.toInt := by
  obtain ⟨changes, hchanges, haccounts⟩ := h
  obtain ⟨hlow, _⟩ := haccounts.peak_bounds (hfits.fits hchanges)
  refine ⟨(changes.take n).sum, depthAfter?_take hchanges n, ?_⟩
  exact Int.le_trans (take_sum_le_highest changes n) hlow

/-- An effect without slack has a peak that is reached. -/
theorem Tracks.exists_eq_peak {code : List Step} {e : StackEffect} (h : Tracks 0 code e)
    (hfits : DepthFits code) : ∃ n, depthAfter? 0 (code.take n) = some e.peak.toInt := by
  obtain ⟨changes, hchanges, haccounts⟩ := h
  have hpeak := haccounts.peak_bounds (hfits.fits hchanges)
  obtain ⟨n, hn⟩ := exists_take_sum_eq_highest changes
  refine ⟨n, ?_⟩
  rw [depthAfter?_take hchanges n, hn]
  congr 1
  omega

/-- Emission of a valid tree that the library built reports the depth machine's account of the
emitted steps: the net is the total change of the depth, the peak bounds the depth after every
number of steps, and is reached unless an element of an array is loaded.

The net is the total change as a 64-bit number whatever the steps are. That it is the exact change,
and all about the peak, is said of depths up to 2^61 in both directions only. This rules out nothing
but depths near the 64-bit range, where sums of depths wrap around. Only code beyond any memory gets
there: every slot is pushed by a step or named in the descriptor of one. -/
theorem Manipulation.emit_accounts_for_depth {m : Manipulation} (hbuilt : m.Built)
    (hvalid : m.isValid = true) :
    ∃ code effect, m.emit = (code, .ok effect) ∧
      ∃ total, depthAfter? 0 code.toList = some total ∧ effect.net = Int64.ofInt total ∧
        (DepthFits code.toList →
          effect.net.toInt = total ∧ 0 ≤ effect.peak.toInt ∧ total ≤ effect.peak.toInt ∧
          (∀ n, ∃ d, depthAfter? 0 (code.toList.take n) = some d ∧ d ≤ effect.peak.toInt) ∧
          (m.NoElementLoad →
            ∃ n, depthAfter? 0 (code.toList.take n) = some effect.peak.toInt)) := by
  refine ⟨m.steps.toArray, m.effect, emit_eq hvalid, ?_⟩
  have htracks := hbuilt.tracks
  obtain ⟨changes, hchanges, haccounts⟩ := hbuilt.tracks
  have htotal : depthAfter? 0 m.steps = some changes.sum := by
    rw [depthAfter?_eq hchanges, Int.zero_add]
  refine ⟨changes.sum, htotal, haccounts.net_eq, fun hfits => ?_⟩
  have hbound := htracks.le_peak hfits
  refine ⟨haccounts.toInt_net (hfits.fits hchanges), ?_, ?_, hbound, ?_⟩
  · obtain ⟨d, hd, hle⟩ := hbound 0
    cases hd
    exact hle
  · obtain ⟨d, hd, hle⟩ := hbound m.steps.length
    rw [List.take_length, htotal, Option.some.injEq] at hd
    rw [hd]
    exact hle
  · intro hloads
    exact (hbuilt.tracks_exactly hloads).exists_eq_peak hfits

/-- The length of a new array of one widened int, copied and dropped: ten steps, of which the sixth
ends at the peak. -/
theorem Manipulation.emit_accounts_for_depth_longArray :
    let m := compose [arrayLiteral (.primitive .long)
      [compose [push (.int 300), widen (.primitive .int) (.primitive .long)]],
      atom .arrayLength, compound [atom (.duplicate .single), atom (.discard .single)]]
    ∃ code effect, m.emit = (code, .ok effect) ∧ DepthFits code.toList ∧
      depthAfter? 0 code.toList = some 1 ∧ effect.net.toInt = 1 ∧
      ∃ n, depthAfter? 0 (code.toList.take n) = some effect.peak.toInt := by
  intro m
  have hvalue : (compose [push (.int 300),
      widen (.primitive .int) (.primitive .long)]).Built := by
    refine .compose ?_
    simp only [List.forall_mem_cons]
    exact ⟨.push _, .widen _ _, by simp⟩
  have hcopies : (compound [atom (.duplicate .single), atom (.discard .single)]).Built := by
    refine .compound ?_
    simp only [List.forall_mem_cons]
    exact ⟨.duplicate (Or.inr (Or.inl rfl)), .discard (Or.inr (Or.inl rfl)), by simp⟩
  have harray : (arrayLiteral (.primitive .long) [compose [push (.int 300),
      widen (.primitive .int) (.primitive .long)]]).Built := by
    refine .arrayLiteral (t := .primitive .long) rfl ?_
    rw [List.forall_mem_singleton]
    exact hvalue
  have hbuilt : m.Built := by
    refine .compose ?_
    simp only [List.forall_mem_cons]
    exact ⟨harray, .arrayLength, hcopies, by simp⟩
  obtain ⟨code, effect, hemit, total, htotal, _, haccount⟩ :=
    emit_accounts_for_depth hbuilt (by decide)
  have hcode : code = m.emit.1 := by rw [hemit]
  have hfits : DepthFits code.toList := by
    rw [hcode]
    decide
  have hone : depthAfter? 0 code.toList = some 1 := by
    rw [hcode]
    decide
  obtain ⟨hnet, _, _, _, hreached⟩ := haccount hfits
  rw [htotal, Option.some.injEq] at hone
  rw [hone] at htotal hnet
  refine ⟨code, effect, hemit, hfits, htotal, hnet, hreached ?_⟩
  simp [m, NoElementLoad, Everywhere, AllEverywhere, compose, push, widen, widenPrimitive]

end OperandStack
