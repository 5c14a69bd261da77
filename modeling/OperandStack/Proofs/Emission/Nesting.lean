import Mathlib.Order.Bounds.Basic
import OperandStack.Proofs.Emission.Validity
import OperandStack.Proofs.Machine.Depth

/-!
# Nesting of compounds

A tree of compounds stands for the sequence of its leaves. What it emits and whether it
is valid depend on that sequence alone, and so does its net. The peak is folded together
at every level of the nesting, in 64-bit numbers: it is that of the sequence as long as
no stretch of leaves moves the depth out of their range, and may depend on the nesting
beyond that.
-/

namespace OperandStack

namespace StackEffect

/-- Whether the peak of an effect is neither below its start nor below its end. -/
def Sound (e : StackEffect) : Prop := 0 ≤ e.peak ∧ e.net ≤ e.peak

instance : DecidablePred Sound := fun e => inferInstanceAs (Decidable (0 ≤ e.peak ∧ _))

theorem Sound.toInt {e : StackEffect} (h : e.Sound) :
    0 ≤ e.peak.toInt ∧ e.net.toInt ≤ e.peak.toInt :=
  ⟨Int64.le_iff_toInt_le.mp h.1, Int64.le_iff_toInt_le.mp h.2⟩

/-- The sum of the nets of several effects. -/
def total (sizes : List StackEffect) : Int := (sizes.map fun e => e.net.toInt).sum

/-- The rises over the start that effects in turn come to: the nets before one of them, and its
peak. -/
def rises (sizes : List StackEffect) : Set Int :=
  {d | ∃ before e after, sizes = before ++ e :: after ∧ d = total before + e.peak.toInt}

/-- Whether no stretch of effects in turn moves the depth out of the range of 64-bit numbers. -/
def InRange (sizes : List StackEffect) : Prop :=
  ∀ stretch, stretch <:+: sizes → -2 ^ 63 ≤ total stretch ∧ ∀ d ∈ rises stretch, d < 2 ^ 63

/-- A part of what stays in range stays in range. -/
theorem InRange.of_infix {sizes part : List StackEffect} (h : InRange sizes)
    (hpart : part <:+: sizes) : InRange part :=
  fun stretch hstretch => h stretch (hstretch.trans hpart)

/-- Whether the parts of an effect are numbers of 32 bits. -/
def Small (e : StackEffect) : Prop :=
  -2 ^ 31 ≤ e.net.toInt ∧ e.net.toInt ≤ 2 ^ 31 ∧ e.peak.toInt ≤ 2 ^ 31

instance : DecidablePred Small := fun e => inferInstanceAs (Decidable (-2 ^ 31 ≤ e.net.toInt ∧ _))

/-- The total of small effects is bounded by their number. -/
theorem total_bounds {sizes : List StackEffect} (h : ∀ e ∈ sizes, e.Small) :
    -(2 ^ 31 * sizes.length) ≤ total sizes ∧ total sizes ≤ 2 ^ 31 * sizes.length := by
  induction sizes with
  | nil => decide
  | cons e rest ih =>
    rw [List.forall_mem_cons] at h
    obtain ⟨hlow, hhigh, _⟩ := h.1
    have hrest := ih h.2
    simp only [total, List.map_cons, List.sum_cons, List.length_cons] at hrest ⊢
    omega

/-- Small effects are in range unless there are more of them than 32 bits can count. -/
theorem inRange_of_small {sizes : List StackEffect} (h : ∀ e ∈ sizes, e.Small)
    (hlength : sizes.length ≤ 2 ^ 31) : InRange sizes := by
  intro stretch hstretch
  have hsmall : ∀ e ∈ stretch, e.Small := fun e he => h e (hstretch.subset he)
  have hshort := hstretch.length_le
  have htotal := total_bounds hsmall
  refine ⟨by omega, ?_⟩
  rintro d ⟨before, e, after, rfl, rfl⟩
  have hbefore := total_bounds fun f hf => hsmall f (List.mem_append_left _ hf)
  have hpeak := (hsmall e (by simp)).2.2
  rw [List.length_append] at hshort
  omega

/-- The largest rise of effects in turn, by recursion. -/
def highest : List StackEffect → Int
  | [] => 0
  | e :: rest => max e.peak.toInt (e.net.toInt + highest rest)

section Highest

variable {xs ys : List StackEffect}

@[simp] theorem total_append : total (xs ++ ys) = total xs + total ys := by simp [total]

/-- The largest rise is not below the start. -/
theorem highest_nonneg (h : ∀ e ∈ xs, e.Sound) : 0 ≤ highest xs := by
  cases xs with
  | nil => exact Int.le_refl 0
  | cons e rest =>
    have hpeak := (h e List.mem_cons_self).toInt
    rw [highest]
    omega

/-- The end is not above the largest rise. -/
theorem total_le_highest (h : ∀ e ∈ xs, e.Sound) : total xs ≤ highest xs := by
  induction xs with
  | nil => exact Int.le_refl 0
  | cons e rest ih =>
    have hrest := ih fun f hf => h f (List.mem_cons_of_mem _ hf)
    simp only [total, List.map_cons, List.sum_cons, highest] at hrest ⊢
    omega

/-- The rises of the second part start at the total of the first. -/
theorem highest_append (hys : ∀ e ∈ ys, e.Sound) :
    highest (xs ++ ys) = max (highest xs) (total xs + highest ys) := by
  induction xs with
  | nil =>
    have hnonneg := highest_nonneg hys
    simp only [List.nil_append, highest, total, List.map_nil, List.sum_nil]
    omega
  | cons e rest ih =>
    simp only [List.cons_append, highest, total, List.map_cons, List.sum_cons] at ih ⊢
    omega

/-- The largest rise is a rise, or there are no effects. -/
theorem highest_mem_rises (h : ∀ e ∈ xs, e.Sound) : xs = [] ∨ highest xs ∈ rises xs := by
  induction xs with
  | nil => exact Or.inl rfl
  | cons e rest ih =>
    right
    have hsound := (h e List.mem_cons_self).toInt
    by_cases hfirst : e.net.toInt + highest rest ≤ e.peak.toInt
    · refine ⟨[], e, rest, rfl, ?_⟩
      simp only [highest, total, List.map_nil, List.sum_nil]
      omega
    · obtain rfl | ⟨before, f, after, rfl, hrise⟩ := ih fun f hf => h f (List.mem_cons_of_mem _ hf)
      · simp only [highest] at hfirst
        omega
      · refine ⟨e :: before, f, after, rfl, ?_⟩
        simp only [total, List.map_cons, List.sum_cons, highest] at hrise ⊢
        omega

/-- No rise is above the largest. -/
theorem le_highest {d : Int} (h : ∀ e ∈ xs, e.Sound) (hd : d ∈ rises xs) : d ≤ highest xs := by
  obtain ⟨before, e, after, rfl, rfl⟩ := hd
  have hafter : ∀ f ∈ e :: after, f.Sound := fun f hf => h f (List.mem_append_right _ hf)
  have hpeak : e.peak.toInt ≤ highest (e :: after) := Int.le_max_left _ _
  rw [highest_append hafter]
  omega

/-- The largest rise is the greatest of the start and the rises. -/
theorem isGreatest_highest (h : ∀ e ∈ xs, e.Sound) :
    IsGreatest (insert 0 (rises xs)) (highest xs) := by
  constructor
  · obtain rfl | hrise := highest_mem_rises h
    · exact Set.mem_insert 0 _
    · exact Set.mem_insert_of_mem 0 hrise
  · rintro d (rfl | hd)
    · exact highest_nonneg h
    · exact le_highest h hd

/-- In range, a total before further effects and their largest rise add up without wrapping. -/
theorem InRange.sum_bounds (h : InRange (xs ++ ys)) (hsound : ∀ e ∈ xs ++ ys, e.Sound) :
    -2 ^ 63 ≤ total xs + highest ys ∧ total xs + highest ys < 2 ^ 63 := by
  have hxs : ∀ e ∈ xs, e.Sound := fun e he => hsound e (List.mem_append_left _ he)
  have hys : ∀ e ∈ ys, e.Sound := fun e he => hsound e (List.mem_append_right _ he)
  obtain ⟨hlow, hhigh⟩ := h xs (List.prefix_append xs ys).isInfix
  have hnonneg := highest_nonneg hys
  refine ⟨by omega, ?_⟩
  obtain rfl | ⟨before, e, after, rfl, hrise⟩ := highest_mem_rises hys
  · -- nothing rises behind the total, which is below a rise itself
    have hle := total_le_highest hxs
    obtain rfl | hrises := highest_mem_rises hxs
    · decide
    · have hlt := hhigh _ hrises
      simp only [highest]
      omega
  · obtain ⟨_, hall⟩ := h _ List.infix_rfl
    have hlt := hall (total xs + highest (before ++ e :: after))
      ⟨xs ++ before, e, after, by rw [List.append_assoc], by rw [hrise, total_append]; omega⟩
    exact hlt

end Highest

/-- Whether an effect is that of several effects in turn: its net up to wrapping, and its peak as long
as the effects are sound and in range. -/
structure Summarizes (sizes : List StackEffect) (e : StackEffect) : Prop where
  net_eq : e.net = Int64.ofInt (total sizes)
  peak_eq : (∀ x ∈ sizes, x.Sound) → InRange sizes → e.peak.toInt = highest sizes

theorem Summarizes.nil : Summarizes [] .zero := ⟨rfl, fun _ _ => rfl⟩

/-- An effect summarizes itself. -/
theorem Summarizes.single (e : StackEffect) : Summarizes [e] e := by
  constructor
  · simp [total]
  · intro hsound _
    have hpeak := (hsound e List.mem_cons_self).toInt
    simp only [highest]
    omega

/-- The effects of pieces in turn summarize those of their leaves in turn. -/
theorem Summarizes.append {xs ys : List StackEffect} {e f : StackEffect} (he : Summarizes xs e)
    (hf : Summarizes ys f) : Summarizes (xs ++ ys) (e.followedBy f) := by
  constructor
  · rw [followedBy, he.net_eq, hf.net_eq, ← Int64.ofInt_add, total_append]
  · intro hsound hrange
    have hys : ∀ x ∈ ys, x.Sound := fun x hx => hsound x (List.mem_append_right _ hx)
    have hfirst := he.peak_eq (fun x hx => hsound x (List.mem_append_left _ hx))
      (hrange.of_infix (List.prefix_append xs ys).isInfix)
    have hsecond := hf.peak_eq hys (hrange.of_infix (List.suffix_append xs ys).isInfix)
    obtain ⟨hlow, hhigh⟩ := hrange.sum_bounds hsound
    have hsum : (e.net + f.peak).toInt = total xs + highest ys := by
      have hpeak : f.peak = Int64.ofInt (highest ys) := by rw [← hsecond, Int64.ofInt_toInt]
      rw [he.net_eq, hpeak, ← Int64.ofInt_add]
      exact Int64.toInt_ofInt_of_le hlow hhigh
    rw [followedBy, Depth.toInt_max, hsum, hfirst, highest_append hys]

/-- In range, the net is the sum of the nets. -/
theorem Summarizes.toInt_net {sizes : List StackEffect} {e : StackEffect} (h : Summarizes sizes e)
    (hsound : ∀ x ∈ sizes, x.Sound) (hrange : InRange sizes) : e.net.toInt = total sizes := by
  rw [← List.append_nil sizes] at hsound hrange
  have hbounds := hrange.sum_bounds hsound
  rw [highest, Int.add_zero] at hbounds
  rw [h.net_eq]
  exact Int64.toInt_ofInt_of_le hbounds.1 hbounds.2

end StackEffect

namespace Manipulation

mutual

/-- The pieces of a tree that are no compounds, left to right. -/
def leaves : Manipulation → List Manipulation
  | trivial => [trivial]
  | illegal => [illegal]
  | atom a => [atom a]
  | compound members => allLeaves members
  | arrayLiteral component elements => [arrayLiteral component elements]
  | custom steps effect valid => [custom steps effect valid]

/-- The leaves of several trees in order. -/
def allLeaves : List Manipulation → List Manipulation
  | [] => []
  | m :: rest => m.leaves ++ allLeaves rest

end

/-- The leaves of several trees follow each other. -/
theorem allLeaves_eq (ms : List Manipulation) : allLeaves ms = ms.flatMap leaves := by
  induction ms with
  | nil => rfl
  | cons m rest ih => rw [allLeaves, ih, List.flatMap_cons]

/-- What is no compound is its own leaf. -/
theorem leaves_of_memberCount? {m : Manipulation} (h : m.memberCount? = none) :
    m.leaves = [m] := by
  cases m with
  | compound members => cases h
  | _ => rw [leaves]

/-- What a composition takes over from a piece: its members, or the piece itself. -/
def members : Manipulation → List Manipulation
  | compound members => members
  | m => [m]

theorem compose_eq (ms : List Manipulation) : compose ms = compound (ms.flatMap members) := rfl

/-- What is no compound is taken over as it is. -/
theorem members_of_memberCount? {m : Manipulation} (h : m.memberCount? = none) :
    m.members = [m] := by
  cases m with
  | compound members => cases h
  | _ => rfl

/-- A composition of pieces that are no compounds has them for its members. -/
theorem compose_of_memberCount? {ms : List Manipulation} (h : ∀ m ∈ ms, m.memberCount? = none) :
    compose ms = compound ms := by
  rw [compose_eq, List.flatMap_congr fun m hm => members_of_memberCount? (h m hm)]
  simp

/-- Composition changes the nesting and not the leaves. -/
theorem leaves_compose (ms : List Manipulation) : (compose ms).leaves = ms.flatMap leaves := by
  rw [compose_eq, leaves, allLeaves_eq, List.flatMap_assoc]
  congr 1
  funext m
  cases m with
  | compound parts => rw [members, leaves, allLeaves_eq]
  | _ => rw [members_of_memberCount? rfl, List.flatMap_singleton]

mutual

/-- A tree is valid exactly if its leaves are. -/
theorem isValid_eq_leaves : (m : Manipulation) → m.isValid = m.leaves.all isValid
  | trivial => by simp [leaves]
  | illegal => by simp [leaves]
  | atom a => by simp [leaves]
  | compound members => by rw [isValid, leaves, allValid_eq_leaves members]
  | arrayLiteral component elements => by simp [leaves]
  | custom steps effect valid => by simp [leaves]

/-- Several trees are valid if all their leaves are. -/
theorem allValid_eq_leaves : (ms : List Manipulation) → allValid ms = (allLeaves ms).all isValid
  | [] => rfl
  | m :: rest => by
    rw [allValid, allLeaves, List.all_append, isValid_eq_leaves m, allValid_eq_leaves rest]

end

mutual

/-- The emission order of a tree is that of its leaves in turn. -/
theorem emissionOrder_eq_leaves : (m : Manipulation) →
    m.emissionOrder = m.leaves.flatMap emissionOrder
  | trivial => by simp [leaves]
  | illegal => by simp [leaves]
  | atom a => by simp [leaves]
  | compound members => by rw [emissionOrder, leaves, memberOrder_eq_leaves members]
  | arrayLiteral component elements => by simp [leaves]
  | custom steps effect valid => by simp [leaves]

/-- Several trees emit what their leaves emit. -/
theorem memberOrder_eq_leaves : (ms : List Manipulation) →
    memberOrder ms = (allLeaves ms).flatMap emissionOrder
  | [] => rfl
  | m :: rest => by
    rw [memberOrder, allLeaves, List.flatMap_append, emissionOrder_eq_leaves m,
      memberOrder_eq_leaves rest]

end

open StackEffect in
mutual

/-- The effect of a tree summarizes the effects of its leaves, however they are nested. -/
theorem effect_summarizes : (m : Manipulation) → Summarizes (m.leaves.map effect) m.effect
  | trivial => by rw [leaves, List.map_singleton]; exact .single _
  | illegal => by rw [leaves, List.map_singleton]; exact .single _
  | atom a => by rw [leaves, List.map_singleton]; exact .single _
  | compound members => by
    rw [leaves, effect]
    exact effectAfter_summarizes members .nil
  | arrayLiteral component elements => by rw [leaves, List.map_singleton]; exact .single _
  | custom steps effect valid => by rw [leaves, List.map_singleton]; exact .single _

/-- Members in turn go on from an effect that summarizes what came before. -/
theorem effectAfter_summarizes : (ms : List Manipulation) →
    ∀ {before : List StackEffect} {done : StackEffect}, Summarizes before done →
      Summarizes (before ++ (allLeaves ms).map effect) (effectAfter done ms)
  | [], before, done, h => by
    rw [allLeaves, effectAfter, List.map_nil, List.append_nil]
    exact h
  | m :: rest, before, done, h => by
    rw [allLeaves, effectAfter, List.map_append, ← List.append_assoc]
    exact effectAfter_summarizes rest (h.append (effect_summarizes m))

end

/-- A piece reports its effect exactly if there is no gap in what it emits. -/
theorem emit_eq_ok_iff {m : Manipulation} {e : StackEffect} :
    m.emit.2 = .ok e ↔ none ∉ m.emissionOrder ∧ m.effect = e := by
  rw [emit, emitOnto_emissionOrder, ending]
  by_cases hgap : none ∈ m.emissionOrder <;> simp [hgap]

/-- What is emitted are the steps before the first gap. -/
theorem toList_emit (m : Manipulation) : m.emit.1.toList = beforeGap m.emissionOrder := by
  simp [emit, emitOnto_emissionOrder]

/-- Without a gap anywhere the steps of several orders are all there is, one after another. -/
theorem beforeGap_flatMap {ms : List Manipulation} (h : ∀ m ∈ ms, none ∉ m.emissionOrder) :
    beforeGap (ms.flatMap emissionOrder) = ms.flatMap fun m => beforeGap m.emissionOrder := by
  induction ms with
  | nil => rfl
  | cons m rest ih =>
    rw [List.forall_mem_cons] at h
    rw [List.flatMap_cons, List.flatMap_cons, beforeGap_append_of_notMem h.1, ih h.2]

end Manipulation

/-- A piece that is no compound. -/
structure Leaf where
  piece : Manipulation
  single : piece.memberCount? = none

/-- How a tree of compounds was put together. -/
inductive Nesting where
  | leaf (l : Leaf)
  /-- Parts composed, so that compounds among them are taken over member by member. -/
  | compose (parts : List Nesting)
  /-- Parts made members of a compound as they are. -/
  | compound (parts : List Nesting)

namespace Nesting

open StackEffect

mutual

/-- The tree that was put together. -/
def tree : Nesting → Manipulation
  | leaf l => l.piece
  | compose parts => .compose (trees parts)
  | compound parts => .compound (trees parts)

/-- The trees of several parts. -/
def trees : List Nesting → List Manipulation
  | [] => []
  | part :: rest => part.tree :: trees rest

end

mutual

/-- The leaves in the order in which they were put in. -/
def leaves : Nesting → List Leaf
  | leaf l => [l]
  | compose parts => allLeaves parts
  | compound parts => allLeaves parts

/-- The leaves of several parts in order. -/
def allLeaves : List Nesting → List Leaf
  | [] => []
  | part :: rest => part.leaves ++ allLeaves rest

end

mutual

/-- Whether every compound was made by composition. -/
def OnlyComposed : Nesting → Prop
  | leaf _ => True
  | compose parts => AllComposed parts
  | compound _ => False

/-- Whether every compound of several parts was made by composition. -/
def AllComposed : List Nesting → Prop
  | [] => True
  | part :: rest => part.OnlyComposed ∧ AllComposed rest

end

mutual

/-- The leaves of a tree are those that were put in. -/
theorem leaves_tree : (t : Nesting) → t.tree.leaves = t.leaves.map Leaf.piece
  | leaf l => by
    rw [tree, leaves, Manipulation.leaves_of_memberCount? l.single, List.map_singleton]
  | compose parts => by rw [tree, leaves, Manipulation.leaves_compose, leaves_trees parts]
  | compound parts => by
    rw [tree, leaves, Manipulation.leaves, Manipulation.allLeaves_eq, leaves_trees parts]

/-- The leaves of several trees are those that were put in. -/
theorem leaves_trees : (parts : List Nesting) →
    (trees parts).flatMap Manipulation.leaves = (allLeaves parts).map Leaf.piece
  | [] => rfl
  | part :: rest => by
    rw [trees, allLeaves, List.flatMap_cons, List.map_append, leaves_tree part, leaves_trees rest]

end

mutual

/-- Composition alone leaves nothing nested: what a further composition takes over are the leaves. -/
theorem members_tree : (t : Nesting) → t.OnlyComposed →
    t.tree.members = t.leaves.map Leaf.piece
  | leaf l, _ => by
    rw [tree, leaves, Manipulation.members_of_memberCount? l.single, List.map_singleton]
  | compose parts, h => by
    rw [OnlyComposed] at h
    rw [tree, leaves, Manipulation.compose_eq, Manipulation.members, members_trees parts h]
  | compound parts, h => by rw [OnlyComposed] at h; exact h.elim

/-- Composed parts have their leaves for members. -/
theorem members_trees : (parts : List Nesting) → AllComposed parts →
    (trees parts).flatMap Manipulation.members = (allLeaves parts).map Leaf.piece
  | [], _ => rfl
  | part :: rest, h => by
    rw [AllComposed] at h
    rw [trees, allLeaves, List.flatMap_cons, List.map_append, members_tree part h.1,
      members_trees rest h.2]

end

/-- Leaves that all report an effect, and the effects that they report. -/
def Report (ls : List Leaf) (sizes : List StackEffect) : Prop :=
  List.Forall₂ (fun l e => l.piece.emit.2 = .ok e) ls sizes

/-- Leaves report their effects exactly if nothing that they emit has a gap. -/
theorem report_iff {ls : List Leaf} {sizes : List StackEffect} :
    Report ls sizes ↔ (∀ m ∈ ls.map Leaf.piece, none ∉ m.emissionOrder) ∧
      (ls.map Leaf.piece).map Manipulation.effect = sizes := by
  unfold Report
  induction ls generalizing sizes with
  | nil => cases sizes <;> simp
  | cons l rest ih =>
    cases sizes with
    | nil => simp
    | cons e sizes =>
      rw [List.forall₂_cons, Manipulation.emit_eq_ok_iff, ih]
      simp only [List.map_cons, List.forall_mem_cons, List.cons.injEq]
      tauto

variable {σ : Type}

/-- A tree whose leaves report their effects gives their steps to a sink in order. -/
theorem applyTo_tree {t : Nesting} {sizes : List StackEffect} (h : Report t.leaves sizes)
    (put : σ → Step → σ) (s : σ) :
    t.tree.applyTo put s =
      ((t.leaves.flatMap fun l => l.piece.emit.1.toList).foldl put s, .ok t.tree.effect) := by
  obtain ⟨hgaps, _⟩ := report_iff.mp h
  have horder := Manipulation.emissionOrder_eq_leaves t.tree
  rw [t.leaves_tree] at horder
  have hnone : none ∉ t.tree.emissionOrder := by
    rw [horder, List.mem_flatMap]
    rintro ⟨m, hm, hgap⟩
    exact hgaps m hm hgap
  rw [Manipulation.applyTo_emissionOrder, Manipulation.ending, if_neg hnone, horder,
    Manipulation.beforeGap_flatMap hgaps, List.flatMap_map]
  simp only [Manipulation.toList_emit]

/-- The effect of a tree summarizes what its leaves report. -/
theorem summarizes_tree {t : Nesting} {sizes : List StackEffect} (h : Report t.leaves sizes) :
    StackEffect.Summarizes sizes t.tree.effect := by
  obtain ⟨_, rfl⟩ := report_iff.mp h
  rw [← t.leaves_tree]
  exact t.tree.effect_summarizes

/-- What a tree does is what its leaves do in turn. It is valid exactly if they are. If they report
their effects, it gives their steps to any sink in order and reports the sum of their nets, and, for
sound leaves in range, the greatest of their rises. Trees with the same leaves agree, and
compositions of compositions are flat. -/
theorem tree_does_leaves_in_turn (t : Nesting) :
    t.tree.isValid = t.leaves.all (fun l => l.piece.isValid) ∧
    (∀ sizes, Report t.leaves sizes → ∃ e : StackEffect,
      (∀ (σ : Type) (put : σ → Step → σ) (s : σ), t.tree.applyTo put s =
        ((t.leaves.flatMap fun l => l.piece.emit.1.toList).foldl put s, .ok e)) ∧
      e.net = Int64.ofInt (total sizes) ∧
      ((∀ x ∈ sizes, x.Sound) → InRange sizes →
        e.net.toInt = total sizes ∧ IsGreatest (insert 0 (rises sizes)) e.peak.toInt)) ∧
    (∀ u : Nesting, u.leaves = t.leaves →
      u.tree.isValid = t.tree.isValid ∧
      ∀ (σ : Type) (put : σ → Step → σ) (s : σ),
        (u.tree.applyTo put s).1 = (t.tree.applyTo put s).1 ∧
        ∀ sizes, Report t.leaves sizes → (∀ x ∈ sizes, x.Sound) → InRange sizes →
          u.tree.applyTo put s = t.tree.applyTo put s) ∧
    (t.OnlyComposed → ∀ parts, t = compose parts →
      t.tree = .compound (t.leaves.map Leaf.piece)) := by
  have hvalid : ∀ u : Nesting, u.tree.isValid = u.leaves.all fun l => l.piece.isValid := by
    intro u
    rw [Manipulation.isValid_eq_leaves, u.leaves_tree, List.all_map]
    rfl
  refine ⟨hvalid t, ?_, ?_, ?_⟩
  · intro sizes hreport
    have hsummary := summarizes_tree hreport
    refine ⟨t.tree.effect, fun σ put s => applyTo_tree hreport put s, hsummary.net_eq, ?_⟩
    intro hsound hrange
    refine ⟨hsummary.toInt_net hsound hrange, ?_⟩
    rw [hsummary.peak_eq hsound hrange]
    exact isGreatest_highest hsound
  · intro u hu
    refine ⟨by rw [hvalid u, hvalid t, hu], fun σ put s => ⟨?_, ?_⟩⟩
    · rw [Manipulation.applyTo_emissionOrder, Manipulation.applyTo_emissionOrder,
        Manipulation.emissionOrder_eq_leaves u.tree, Manipulation.emissionOrder_eq_leaves t.tree,
        u.leaves_tree, t.leaves_tree, hu]
    · intro sizes hreport hsound hrange
      have hreport' : Report u.leaves sizes := by rwa [hu]
      have hfirst := summarizes_tree hreport'
      have hsecond := summarizes_tree hreport
      have hpeak : u.tree.effect.peak = t.tree.effect.peak := by
        apply Int64.toInt_inj.mp
        rw [hfirst.peak_eq hsound hrange, hsecond.peak_eq hsound hrange]
      have heffect : u.tree.effect = t.tree.effect := by
        rw [StackEffect.mk.injEq]
        exact ⟨hfirst.net_eq.trans hsecond.net_eq.symm, hpeak⟩
      rw [applyTo_tree hreport', applyTo_tree hreport, hu, heffect]
  · rintro hcomposed parts rfl
    rw [OnlyComposed] at hcomposed
    rw [tree, Manipulation.compose_eq, members_trees parts hcomposed, leaves]

/-- Two ints, the second of which is widened and dropped inside a nested compound with an empty one
behind it: the fall in the middle is no matter for the peak. -/
theorem tree_does_leaves_in_turn_widened :
    let push : Leaf := ⟨.push (.int 300), rfl⟩
    let widen : Leaf := ⟨.atom (.convert .intToLong), rfl⟩
    let drop : Leaf := ⟨.atom (.discard .double), rfl⟩
    let t := compound [leaf push, compose [compound [leaf push, leaf widen], leaf drop, compound []],
      compound []]
    let sizes : List StackEffect := [⟨1, 1⟩, ⟨1, 1⟩, ⟨1, 1⟩, ⟨-2, 0⟩]
    Report t.leaves sizes ∧ (∀ x ∈ sizes, x.Sound) ∧ InRange sizes ∧
      ∃ e, (∀ (σ : Type) (put : σ → Step → σ) (s : σ), t.tree.applyTo put s =
          ((t.leaves.flatMap fun l => l.piece.emit.1.toList).foldl put s, .ok e)) ∧
        e.net.toInt = 1 ∧ IsGreatest (insert 0 (rises sizes)) e.peak.toInt ∧
        (compound (t.leaves.map leaf)).tree.applyTo (fun n _ => n + 1) 0 =
          t.tree.applyTo (fun n _ => n + 1) 0 ∧
        (compose (t.leaves.map leaf)).tree = .compound (t.leaves.map Leaf.piece) := by
  intro push widen drop t sizes
  have hreport : Report t.leaves sizes := by
    refine report_iff.mpr ⟨?_, rfl⟩
    decide
  have hsound : ∀ x ∈ sizes, x.Sound := by decide
  have hrange : InRange sizes := inRange_of_small (by decide) (by decide)
  obtain ⟨_, hturn, hagree, _⟩ := tree_does_leaves_in_turn t
  obtain ⟨e, hsteps, _, hsize⟩ := hturn sizes hreport
  obtain ⟨hnet, hpeak⟩ := hsize hsound hrange
  obtain ⟨_, hflat⟩ := hagree (compound (t.leaves.map leaf)) rfl
  obtain ⟨_, _, _, hcomposed⟩ := tree_does_leaves_in_turn (compose (t.leaves.map leaf))
  refine ⟨hreport, hsound, hrange, e, hsteps, hnet, hpeak, ?_, ?_⟩
  · exact (hflat Nat (fun n _ => n + 1) 0).2 sizes hreport hsound hrange
  · refine hcomposed ?_ _ rfl
    simp [t, leaves, allLeaves, OnlyComposed, AllComposed]

/-- Two rises by a quarter of the 64-bit numbers, behind a fall by as much. On their own they leave
the range: nested below the fall they are reported as no rise at all, though all three in one compound
rise to the greatest of their rises. -/
theorem nesting_shows_out_of_range :
    let fall : Leaf := ⟨.custom [] ⟨-4611686018427387904, 0⟩ true, rfl⟩
    let rise : Leaf := ⟨.custom [] ⟨4611686018427387904, 4611686018427387904⟩ true, rfl⟩
    let nested := compound [leaf fall, compound [leaf rise, leaf rise]]
    let flat := compound [leaf fall, leaf rise, leaf rise]
    let sizes : List StackEffect := [⟨-4611686018427387904, 0⟩,
      ⟨4611686018427387904, 4611686018427387904⟩, ⟨4611686018427387904, 4611686018427387904⟩]
    nested.leaves = flat.leaves ∧ Report nested.leaves sizes ∧ (∀ x ∈ sizes, x.Sound) ∧
      IsGreatest (insert 0 (rises sizes)) (2 ^ 62) ∧
      nested.tree.emit.2 = .ok ⟨4611686018427387904, 0⟩ ∧
      flat.tree.emit.2 = .ok ⟨4611686018427387904, 4611686018427387904⟩ := by
  intro fall rise nested flat sizes
  have hsound : ∀ x ∈ sizes, x.Sound := by decide
  have hhighest : highest sizes = 2 ^ 62 := by decide
  refine ⟨rfl, ?_, hsound, ?_, by decide, by decide⟩
  · exact report_iff.mpr ⟨by decide, rfl⟩
  · rw [← hhighest]
    exact isGreatest_highest hsound

end Nesting

end OperandStack
