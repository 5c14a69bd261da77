import Mathlib.Order.Bounds.Basic
import OperandStack.Manipulation.Access
import OperandStack.Proofs.Frame.Size
import OperandStack.Proofs.Machine.Arrays
import OperandStack.Proofs.Machine.Depth

/-!
# Array literals

An array literal creates an array and then, for one element after another, copies the
reference to it, pushes the index and lets the element push its value, which is written
into the array. Whatever the elements do otherwise, they leave the values below and the
arrays there are alone; so the reference stays on the stack and the array fills up from
the left. An element is pushed over two references and an index. The depth reported for
that is a 64-bit number, which wraps around for elements of a very large peak.
-/

namespace OperandStack

open ValueState

variable {ω : Type} {outside : Outside ω}

/-- Instructions that push one value for an element. The values below stay as they are, and so do
the arrays; new ones may come behind them. -/
structure PushesOne (outside : Outside ω) (c : Component) (code : List Instruction)
    (s : ValueState ω) (v : Value) (next : ValueState ω) : Prop where
  runs : s.run? outside code = some next
  stack_eq : next.stack = v :: s.stack
  arrays_prefix : s.arrays <+: next.arrays
  holds : c.Holds v

/-- Which value is pushed follows from the instructions and the state they start in. -/
theorem PushesOne.unique {c : Component} {code : List Instruction} {s next next' : ValueState ω}
    {v v' : Value} (h : PushesOne outside c code s v next)
    (h' : PushesOne outside c code s v' next') : v = v' := by
  have hnext : next = next' := Option.some.inj (h.runs.symm.trans h'.runs)
  subst hnext
  exact (List.cons.inj (h.stack_eq.symm.trans h'.stack_eq)).1

/-- Part of a code that supplies the value of an element: it is run at the moment when the index lies
on two references to the array. -/
def Supplies (outside : Outside ω) (c : Component) (s : ValueState ω) (code : List Instruction)
    (base : List Value) (address i : Nat) (part : List Instruction) (v : Value) : Prop :=
  ∃ before after start stop, code = before ++ (part ++ after) ∧
    s.run? outside before = some start ∧
    start.stack = .int (Int32.ofNat i) :: .array address :: .array address :: base ∧
    PushesOne outside c part start v stop

section Supplies

variable {c : Component} {s : ValueState ω} {code part : List Instruction} {base : List Value}
  {address i : Nat} {v : Value}

/-- Code that follows changes nothing about what an element was supplied with. -/
theorem Supplies.append (h : Supplies outside c s code base address i part v)
    (more : List Instruction) : Supplies outside c s (code ++ more) base address i part v := by
  obtain ⟨before, after, start, stop, rfl, hrest⟩ := h
  exact ⟨before, after ++ more, start, stop, by simp only [List.append_assoc], hrest⟩

/-- Code that runs first only moves the moment at which an element is supplied. -/
theorem Supplies.prepend {earlier : ValueState ω} {first : List Instruction}
    (hfirst : earlier.run? outside first = some s)
    (h : Supplies outside c s code base address i part v) :
    Supplies outside c earlier (first ++ code) base address i part v := by
  obtain ⟨before, after, start, stop, rfl, hstart, hrest⟩ := h
  refine ⟨first ++ before, after, start, stop, (List.append_assoc ..).symm, ?_, hrest⟩
  rw [run?_trans hfirst, hstart]

end Supplies

/-- The state while an array is filled: its reference lies on the values that were there before, and
the array behind those that were there before. -/
structure Filling (c : Component) (base : List Value) (old : List ArrayObject)
    (elements : List Value) (s : ValueState ω) : Prop where
  stack_eq : s.stack = .array old.length :: base
  arrays_eq : ∃ more, s.arrays = old ++ ⟨c, elements⟩ :: more

theorem Component.depth_size (c : Component) : c.size.depth = 1 ∨ c.size.depth = 2 := by
  cases c with
  | primitive p => cases p <;> decide
  | reference name => exact Or.inl rfl

/-- Every element takes a slot at least. -/
theorem Component.one_le_depth (c : Component) : 1 ≤ c.size.depth.toInt := by
  rcases c.depth_size with h | h <;> rw [h] <;> decide

namespace Manipulation

/-- The instructions that are recorded for a piece. -/
def instructions (m : Manipulation) : List Instruction :=
  (Recording.ofSteps m.emit.1).instructions.toList

/-- A valid piece records exactly its steps. -/
theorem instructions_eq {m : Manipulation} (h : m.isValid = true) :
    m.instructions = m.steps.map Step.instruction := by
  rw [instructions, Recording.instructions_ofSteps, emit_eq h]

/-- Whether a piece can be an element: from every state on it pushes one value for the array, and it
reports the slots of that value, with a peak that is not below them. -/
structure IsElement (outside : Outside ω) (c : Component) (m : Manipulation) : Prop where
  valid : m.isValid = true
  reports : ∃ peak, m.emit.2 = .ok ⟨c.size.depth, peak⟩ ∧ c.size.depth ≤ peak
  pushes : ∀ s, ∃ v next, PushesOne outside c m.instructions s v next

/-- An array is valid if its elements are. -/
theorem isValid_arrayLiteral {c : Component} {elements : List Manipulation}
    (h : ∀ m ∈ elements, IsElement outside c m) : (arrayLiteral c elements).isValid = true := by
  rw [isValid, allValid_iff]
  exact fun m hm => (h m hm).valid

/-- The instructions for one element. -/
def elementCode (c : Component) (i : Nat) (m : Manipulation) : List Instruction :=
  [.plain .dup, (Literal.int (Int32.ofNat i)).push.step.instruction] ++
    (m.instructions ++ [.plain c.storeOp])

/-- One element: the next place of the array gets the value that the element pushes. -/
theorem run?_elementCode {c : Component} {m : Manipulation} (hm : IsElement outside c m)
    {base : List Value} {old : List ArrayObject} {first rest : List Value} {place : Value}
    {s : ValueState ω} (hs : Filling c base old (first ++ place :: rest) s)
    (hrange : first.length < 2 ^ 31) :
    ∃ v next, s.run? outside (elementCode c first.length m) = some next ∧
      Filling c base old (first ++ v :: rest) next ∧
      Supplies outside c s (elementCode c first.length m) base old.length first.length
        m.instructions v := by
  obtain ⟨hstack, more, harrays⟩ := hs
  let start := (s.push (.array old.length)).push (.int (Int32.ofNat first.length))
  have hindexed : s.run? outside
      [.plain .dup, (Literal.int (Int32.ofNat first.length)).push.step.instruction] =
        some start :=
    (run?_trans (run?_copy hstack rfl)).trans (run?_push _)
  have hstart : start.stack = .int (Int32.ofNat first.length) :: .array old.length ::
      .array old.length :: base := by
    simp only [start, stack_push, hstack]
  obtain ⟨v, stop, hpush⟩ := hm.pushes start
  obtain ⟨added, hadded⟩ := hpush.arrays_prefix
  have hstop : stop.arrays = old ++ ⟨c, first ++ place :: rest⟩ :: (more ++ added) := by
    rw [← hadded]
    simp only [start, arrays_push, harrays, List.append_assoc, List.cons_append]
  let next : ValueState ω := ⟨.array old.length :: base,
    old ++ ⟨c, first ++ v :: rest⟩ :: (more ++ added), stop.world⟩
  have hwrite : stop.run? outside [.plain c.storeOp] = some next :=
    run?_write (hpush.stack_eq.trans (by rw [hstart])) hstop rfl hrange hpush.holds
  refine ⟨v, next, ?_, ⟨rfl, _, rfl⟩, _, [.plain c.storeOp], start, stop, rfl, hindexed, hstart,
    hpush⟩
  rw [elementCode, run?_trans hindexed, run?_trans hpush.runs, hwrite]

/-- The instructions that fill an array from an index on. -/
def fillingCode (c : Component) (i : Nat) (elements : List Manipulation) : List Instruction :=
  (elementSteps c i elements).map Step.instruction

/-- An array is filled element by element. -/
theorem fillingCode_cons {c : Component} {i : Nat} {m : Manipulation} (hm : m.isValid = true)
    (rest : List Manipulation) :
    fillingCode c i (m :: rest) = elementCode c i m ++ fillingCode c (i + 1) rest := by
  simp only [fillingCode, elementSteps, elementCode, instructions_eq hm, List.map_append,
    List.append_assoc]
  rfl

/-- All elements from an index on. The places before it stay as they are. -/
theorem run?_fillingCode {c : Component} {base : List Value} {old : List ArrayObject}
    {elements : List Manipulation} (helements : ∀ m ∈ elements, IsElement outside c m)
    {first places : List Value} {s : ValueState ω} (hplaces : places.length = elements.length)
    (hs : Filling c base old (first ++ places) s)
    (hrange : first.length + elements.length ≤ 2 ^ 31) :
    ∃ vs next, s.run? outside (fillingCode c first.length elements) = some next ∧
      Filling c base old (first ++ vs) next ∧ vs.length = elements.length ∧
      ∀ j m, elements[j]? = some m → ∃ v, vs[j]? = some v ∧
        Supplies outside c s (fillingCode c first.length elements) base old.length
          (first.length + j) m.instructions v := by
  -- The part that is filled grows by one value per element, so it is generalized with the state.
  induction elements generalizing first places s with
  | nil =>
    rw [List.length_eq_zero_iff.mp hplaces] at hs
    exact ⟨[], s, rfl, hs, rfl, by simp⟩
  | cons m rest ih =>
    rw [List.forall_mem_cons] at helements
    obtain ⟨place, places, rfl⟩ := List.exists_cons_of_length_eq_add_one hplaces
    rw [List.length_cons] at hrange hplaces
    obtain ⟨v, middle, hrun, hmiddle, hv⟩ := run?_elementCode helements.1 hs (by omega)
    rw [List.append_cons] at hmiddle
    have hlength : (first ++ [v]).length = first.length + 1 := List.length_append
    obtain ⟨vs, next, hrest, hnext, hvs, hsupplied⟩ :=
      ih helements.2 (Nat.succ.inj hplaces) hmiddle (by omega)
    rw [hlength] at hrest hsupplied
    rw [← List.append_cons] at hnext
    rw [fillingCode_cons helements.1.valid]
    refine ⟨v :: vs, next, ?_, hnext, by rw [List.length_cons, List.length_cons, hvs], ?_⟩
    · rw [run?_trans hrun, hrest]
    · intro j m' hm'
      cases j with
      | zero =>
        cases hm'
        exact ⟨v, rfl, hv.append _⟩
      | succ j =>
        obtain ⟨w, hw, hsupply⟩ := hsupplied j m' hm'
        rw [Nat.add_right_comm] at hsupply
        exact ⟨w, hw, hsupply.prepend hrun⟩

/-- A whole literal: the reference to a new array is pushed, and every element of the array is the
value that was pushed for it. -/
theorem run?_arrayLiteral {c : Component} {elements : List Manipulation}
    (helements : ∀ m ∈ elements, IsElement outside c m) (hrange : elements.length < 2 ^ 31)
    (s : ValueState ω) :
    ∃ vs next, s.run? outside (arrayLiteral c elements).instructions = some next ∧
      Filling c s.stack s.arrays vs next ∧ vs.length = elements.length ∧
      ∀ i m, elements[i]? = some m → ∃ v, vs[i]? = some v ∧
        Supplies outside c s (arrayLiteral c elements).instructions s.stack s.arrays.length i
          m.instructions v := by
  have hcode : (arrayLiteral c elements).instructions =
      [(Literal.int (Int32.ofNat elements.length)).push.step.instruction,
        c.createStep.instruction] ++ fillingCode c 0 elements := by
    rw [instructions_eq (isValid_arrayLiteral helements)]
    rfl
  have hlength : (Int32.ofNat elements.length).toInt = elements.length :=
    Int32.toInt_ofNat_of_lt hrange
  let created : ValueState ω := ⟨.array s.arrays.length :: s.stack,
    s.arrays ++ [⟨c, List.replicate elements.length c.zero⟩], s.world⟩
  have hcreated : s.run? outside
      [(Literal.int (Int32.ofNat elements.length)).push.step.instruction,
        c.createStep.instruction] = some created := by
    have hcreate : (s.push (.int (Int32.ofNat elements.length))).run? outside
        [c.createStep.instruction] = some created := by
      rw [run?_create (stack_push ..) (by omega), hlength]
      rfl
    exact (run?_trans (run?_push _)).trans hcreate
  have hfilling : Filling c s.stack s.arrays ([] ++ List.replicate elements.length c.zero)
      created := ⟨rfl, [], rfl⟩
  obtain ⟨vs, next, hrun, hnext, hvs, hsupplied⟩ :=
    run?_fillingCode helements List.length_replicate hfilling (by rw [List.length_nil]; omega)
  rw [hcode]
  refine ⟨vs, next, by rw [run?_trans hcreated]; exact hrun, hnext, hvs, fun i m hm => ?_⟩
  obtain ⟨v, hv, hsupply⟩ := hsupplied i m hm
  rw [List.length_nil, Nat.zero_add] at hsupply
  exact ⟨v, hv, hsupply.prepend hcreated⟩

/-- The effect of one element, behind the effect of what came before. -/
def elementEffect (c : Component) (i : Nat) (before e : StackEffect) : StackEffect :=
  (((before.followedBy (Atom.duplicate .single).effect).followedBy
    (pushInt i).effect).followedBy e).followedBy (Atom.storeElement c).effect

/-- After an element the reference to the array is left. In between lie two more slots than that,
and on these whatever the element needs. -/
theorem elementEffect_eq {c : Component} {i : Nat} {before e : StackEffect}
    (hbefore : before.net = 1) (he : e.net = c.size.depth) :
    elementEffect c i before e =
      ⟨1, max (max (max (max before.peak 2) 3) (3 + e.peak)) (3 + c.size.depth)⟩ := by
  have htwo : 1 + ValueSize.single.depth = 2 := by decide
  have hthree : 2 + ValueSize.single.depth = 3 := by decide
  have hnet : 3 + c.size.depth + (-c.size.depth + -2) = 1 ∧ max 0 (-c.size.depth) = 0 := by
    rcases c.depth_size with h | h <;> rw [h] <;> decide
  simp only [elementEffect, StackEffect.followedBy, Atom.effect, pushInt, ValueSize.pushed,
    ValueSize.popped, Literal.size, hbefore, he, htwo, hthree, hnet, Int64.add_zero]

/-- The peak of an element is reached when its value is pushed over two references and the index. -/
theorem toInt_peak_elementEffect {c : Component} {i : Nat} {before e : StackEffect}
    (hbefore : before.net = 1) (hpeak : 1 ≤ before.peak.toInt) (he : e.net = c.size.depth)
    (hsound : c.size.depth ≤ e.peak) (hrange : 3 + e.peak.toInt < 2 ^ 63) :
    (elementEffect c i before e).peak.toInt = max before.peak.toInt (3 + e.peak.toInt) := by
  have hdepth := c.one_le_depth
  have hafter : (3 + c.size.depth).toInt = 3 + c.size.depth.toInt := by
    rcases c.depth_size with h | h <;> rw [h] <;> decide
  have hsound := Int64.le_iff_toInt_le.mp hsound
  have hsum : (3 + e.peak).toInt = 3 + e.peak.toInt := by
    rw [Int64.toInt_add]
    exact Int.bmod_eq_of_le (by simp; omega) (by simp; omega)
  -- The copy, the index and the write stay below the peak of the value.
  rw [elementEffect_eq hbefore he]
  simp only [Depth.toInt_max, hsum, hafter]
  have htwo : (2 : Int64).toInt = 2 := rfl
  have hthree : (3 : Int64).toInt = 3 := rfl
  omega

/-- The net and a bound for the peak of any number of elements. -/
theorem elementEffectAfter_bounds {c : Component} {elements : List Manipulation}
    (h : ∀ m ∈ elements, m.effect.net = c.size.depth) (i : Nat) (before : StackEffect)
    (hbefore : before.net = 1) :
    (elementEffectAfter c i before elements).net = 1 ∧
      before.peak.toInt ≤ (elementEffectAfter c i before elements).peak.toInt := by
  induction elements generalizing i before with
  | nil => exact ⟨hbefore, Int.le_refl _⟩
  | cons m rest ih =>
    rw [List.forall_mem_cons] at h
    have hfirst := elementEffect_eq (i := i) hbefore h.1
    obtain ⟨hnet, hpeak⟩ := ih h.2 (i + 1) (elementEffect c i before m.effect) (by rw [hfirst])
    refine ⟨hnet, Int.le_trans ?_ hpeak⟩
    rw [hfirst]
    simp only [Depth.toInt_max]
    omega

/-- The peak of any number of elements is the greatest of the peaks of single ones. -/
theorem isGreatest_elementEffectAfter {c : Component} {elements : List Manipulation}
    (h : ∀ m ∈ elements, m.effect.net = c.size.depth ∧ c.size.depth ≤ m.effect.peak ∧
      3 + m.effect.peak.toInt < 2 ^ 63) (i : Nat) (before : StackEffect)
    (hbefore : before.net = 1) (hpeak : 1 ≤ before.peak.toInt) :
    IsGreatest (insert before.peak.toInt {d | ∃ m ∈ elements, d = 3 + m.effect.peak.toInt})
      (elementEffectAfter c i before elements).peak.toInt := by
  induction elements generalizing i before with
  | nil =>
    refine ⟨Set.mem_insert _ _, ?_⟩
    rintro d (rfl | ⟨m, hm, _⟩)
    · exact Int.le_refl _
    · cases hm
  | cons m rest ih =>
    rw [List.forall_mem_cons] at h
    obtain ⟨⟨hnet, hsound, hrange⟩, hrest⟩ := h
    have hfirst := toInt_peak_elementEffect (i := i) hbefore hpeak hnet hsound hrange
    have hafter := ih hrest (i + 1) (elementEffect c i before m.effect)
      (by rw [elementEffect_eq hbefore hnet]) (by omega)
    rw [hfirst] at hafter
    obtain ⟨hmem, hle⟩ := hafter
    constructor
    · rcases hmem with heq | ⟨m', hm', heq⟩
      · by_cases hfar : before.peak.toInt ≤ 3 + m.effect.peak.toInt
        · exact Or.inr ⟨m, List.mem_cons_self, heq.trans (Int.max_eq_right hfar)⟩
        · exact Or.inl (heq.trans (Int.max_eq_left (by omega)))
      · exact Or.inr ⟨m', List.mem_cons_of_mem _ hm', heq⟩
    · have hbound := hle (Set.mem_insert _ _)
      rintro d (rfl | ⟨m', hm', rfl⟩)
      · exact Int.le_trans (Int.le_max_left _ _) hbound
      · rcases List.mem_cons.mp hm' with rfl | hm'
        · exact Int.le_trans (Int.le_max_right _ _) hbound
        · exact hle (Set.mem_insert_of_mem _ ⟨m', hm', rfl⟩)

/-- With an element there is a peak above the one of the array's creation. -/
theorem isGreatest_peak {c : Component} {elements : List Manipulation} (hne : elements ≠ [])
    (h : ∀ m ∈ elements, m.effect.net = c.size.depth ∧ c.size.depth ≤ m.effect.peak ∧
      3 + m.effect.peak.toInt < 2 ^ 63) :
    IsGreatest {d | ∃ m ∈ elements, d = 3 + m.effect.peak.toInt}
      (elementEffectAfter c 0 ⟨1, 1⟩ elements).peak.toInt := by
  obtain ⟨hmem, hle⟩ := isGreatest_elementEffectAfter h 0 ⟨1, 1⟩ rfl (by decide)
  obtain ⟨m, hm⟩ := List.exists_mem_of_ne_nil elements hne
  have hover := hle (Set.mem_insert_of_mem _ ⟨m, hm, rfl⟩)
  have hsound := Int64.le_iff_toInt_le.mp (h m hm).2.1
  have hdepth := c.one_le_depth
  have hone : (1 : Int64).toInt = 1 := rfl
  refine ⟨hmem.resolve_left ?_, fun d hd => hle (Set.mem_insert_of_mem _ hd)⟩
  intro hstart
  simp only [hone] at hstart
  omega

/-- An element is emitted with the effect that it reports. -/
theorem IsElement.effect_eq {c : Component} {m : Manipulation} (h : IsElement outside c m) :
    m.emit.2 = .ok m.effect ∧ m.effect.net = c.size.depth ∧ c.size.depth ≤ m.effect.peak := by
  obtain ⟨peak, hreport, hpeak⟩ := h.reports
  have hemit : m.emit.2 = .ok m.effect := by rw [emit_eq h.valid]
  rw [hemit] at hreport
  have heffect := Except.ok.inj hreport
  exact ⟨hemit, by rw [heffect], by rw [heffect]; exact hpeak⟩

/-- What a literal reports: it pushes one reference, at the peak of its elements. -/
theorem emit_arrayLiteral {c : Component} {elements : List Manipulation}
    (helements : ∀ m ∈ elements, IsElement outside c m) :
    ∃ peak, (arrayLiteral c elements).emit.2 = .ok ⟨1, peak⟩ ∧ 1 ≤ peak.toInt ∧
      (elements = [] → peak = 1) ∧
      (elements ≠ [] →
        (∀ m ∈ elements, ∀ e, m.emit.2 = .ok e → 3 + e.peak.toInt < 2 ^ 63) →
        IsGreatest {d | ∃ m ∈ elements, ∃ e, m.emit.2 = .ok e ∧ d = 3 + e.peak.toInt}
          peak.toInt) := by
  have heffect : (arrayLiteral c elements).effect = elementEffectAfter c 0 ⟨1, 1⟩ elements := rfl
  obtain ⟨hnet, hpeak⟩ := elementEffectAfter_bounds
    (fun m hm => (helements m hm).effect_eq.2.1) 0 ⟨1, 1⟩ rfl
  refine ⟨(elementEffectAfter c 0 ⟨1, 1⟩ elements).peak, ?_, hpeak, ?_, fun hne hrange => ?_⟩
  · have hpair : ∀ e : StackEffect, e.net = 1 → e = ⟨1, e.peak⟩ := by
      rintro ⟨net, peak⟩ rfl
      rfl
    rw [emit_eq (isValid_arrayLiteral helements), heffect]
    exact congrArg Except.ok (hpair _ hnet)
  · rintro rfl
    rfl
  · have hsizes : ∀ m ∈ elements, m.effect.net = c.size.depth ∧ c.size.depth ≤ m.effect.peak ∧
        3 + m.effect.peak.toInt < 2 ^ 63 := by
      intro m hm
      obtain ⟨hreport, hdepth, hsound⟩ := (helements m hm).effect_eq
      exact ⟨hdepth, hsound, hrange m hm _ hreport⟩
    obtain ⟨⟨m, hm, heq⟩, hle⟩ := isGreatest_peak hne hsizes
    refine ⟨⟨m, hm, m.effect, (helements m hm).effect_eq.1, heq⟩, ?_⟩
    rintro d ⟨m, hm, e, he, rfl⟩
    rw [(helements m hm).effect_eq.1] at he
    cases he
    exact hle ⟨m, hm, rfl⟩

/-- A literal that the array can hold pushes its value. -/
theorem pushesOne_push {c : Component} {l : Literal} (h : c.Holds l.value) (s : ValueState ω) :
    PushesOne outside c (push l).instructions s l.value (s.push l.value) :=
  ⟨run?_push l, rfl, List.prefix_refl _, h⟩

/-- A literal whose value the array may hold is an element. -/
theorem isElement_push {c : Component} {l : Literal} (h : c.Holds l.value) :
    IsElement outside c (push l) where
  valid := rfl
  reports := by
    have hsize : l.size.depth = c.size.depth := by
      rw [ValueSize.depth, ValueSize.depth, ← l.slots_value, Component.slots_of_holds h]
    exact ⟨l.size.depth, by rw [← hsize]; rfl, hsize ▸ Int64.le_refl _⟩
  pushes s := ⟨_, _, pushesOne_push h s⟩

/-- Array literals can be elements of array literals. -/
theorem isElement_arrayLiteral {c : Component} {elements : List Manipulation}
    (helements : ∀ m ∈ elements, IsElement outside c m) (hrange : elements.length < 2 ^ 31)
    (name : String) : IsElement outside (.reference name) (arrayLiteral c elements) where
  valid := isValid_arrayLiteral helements
  reports := by
    obtain ⟨peak, hreport, hpeak, _⟩ := emit_arrayLiteral helements
    exact ⟨peak, hreport, Int64.le_iff_toInt_le.mpr hpeak⟩
  pushes := by
    intro s
    obtain ⟨vs, next, hrun, ⟨hstack, more, harrays⟩, _⟩ := run?_arrayLiteral helements hrange s
    exact ⟨_, next, hrun, hstack, harrays ▸ List.prefix_append _ _, rfl⟩

/-- Every type but `void` has an array component, by its primitive sort or its name. -/
theorem component_eq_ok {t : TypeDesc} (ht : t.kind ≠ .void) :
    ∃ c, component t = .ok c ∧ (∀ p, t.kind = .primitive p → c = .primitive p) ∧
      ((∀ p, t.kind ≠ .primitive p) → c = .reference t.name) := by
  cases hkind : t.kind with
  | void => exact absurd hkind ht
  | primitive p =>
    refine ⟨.primitive p, ?_, ?_, ?_⟩
    · simp only [component, Component.ofType?, hkind]
    · rintro _ ⟨⟩
      rfl
    · intro h
      exact absurd rfl (h p)
  | _ =>
    refine ⟨.reference t.name, ?_, ?_, fun _ => rfl⟩
    · simp only [component, Component.ofType?, hkind]
    · rintro _ ⟨⟩

/-- Array literals build the arrays that they say. Every type but `void` has an array component, by
its primitive sort or its name. A literal of elements for it is valid, and from every state on it
pushes the reference to a new array of that component. The array is as long as the list of elements
and holds at each place the value that its element pushed when its turn came, which is `w` if the
element always pushes `w`. What was on the stack and in other arrays stays. The literal reports one
slot. Its peak is one if there are no elements, and otherwise three more than the largest peak of an
element, as long as that is a 64-bit number. -/
theorem arrayLiteral_builds_array {ω : Type} (outside : Outside ω) (t : TypeDesc)
    (ht : t.kind ≠ .void) :
    ∃ c, component t = .ok c ∧ (∀ p, t.kind = .primitive p → c = .primitive p) ∧
      ((∀ p, t.kind ≠ .primitive p) → c = .reference t.name) ∧
      ∀ elements : List Manipulation, elements.length < 2 ^ 31 →
        (∀ m ∈ elements, IsElement outside c m) →
        (arrayLiteral c elements).isValid = true ∧
        (∀ s, ∃ vs next more, s.run? outside (arrayLiteral c elements).instructions = some next ∧
          next.stack = .array s.arrays.length :: s.stack ∧
          next.arrays = s.arrays ++ ⟨c, vs⟩ :: more ∧ vs.length = elements.length ∧
          ∀ i m, elements[i]? = some m → ∃ v, vs[i]? = some v ∧
            Supplies outside c s (arrayLiteral c elements).instructions s.stack s.arrays.length i
              m.instructions v ∧
            ∀ w, (∀ start, ∃ stop, PushesOne outside c m.instructions start w stop) → v = w) ∧
        ∃ peak, (arrayLiteral c elements).emit.2 = .ok ⟨1, peak⟩ ∧
          (elements = [] → peak = 1) ∧
          (elements ≠ [] →
            (∀ m ∈ elements, ∀ e, m.emit.2 = .ok e → 3 + e.peak.toInt < 2 ^ 63) →
            IsGreatest {d | ∃ m ∈ elements, ∃ e, m.emit.2 = .ok e ∧ d = 3 + e.peak.toInt}
              peak.toInt) := by
  obtain ⟨c, hc, hprimitive, hreference⟩ := component_eq_ok ht
  refine ⟨c, hc, hprimitive, hreference, fun elements hrange helements => ?_⟩
  obtain ⟨peak, hreport, _, hnone, hsome⟩ := emit_arrayLiteral helements
  refine ⟨isValid_arrayLiteral helements, fun s => ?_, peak, hreport, hnone, hsome⟩
  obtain ⟨vs, next, hrun, ⟨hstack, more, harrays⟩, hlength, hsupplied⟩ :=
    run?_arrayLiteral helements hrange s
  refine ⟨vs, next, more, hrun, hstack, harrays, hlength, fun i m hm => ?_⟩
  obtain ⟨v, hv, hsupply⟩ := hsupplied i m hm
  refine ⟨v, hv, hsupply, fun w hw => ?_⟩
  obtain ⟨before, after, start, stop, _, _, _, hpush⟩ := hsupply
  obtain ⟨stop', hpush'⟩ := hw start
  exact hpush.unique hpush'

/-- Nested literals: an array of an array of a literal from the pool and minus one, and of the null
reference. The rows are laid down over three slots, and their elements over three more. -/
theorem arrayLiteral_builds_array_nested :
    let outside : Outside Unit := fun _ _ => none
    let row := arrayLiteral (.primitive .int) [push (.int 70000), push (.int (-1))]
    let table := arrayLiteral (.reference "[I") [row, push .null]
    (∀ m ∈ [row, push .null], IsElement outside (.reference "[I") m) ∧
      (∃ vs next more, run? outside ⟨[.int 9], [], ()⟩ table.instructions = some next ∧
        next.stack = [.array 0, .int 9] ∧ next.arrays = ⟨.reference "[I", vs⟩ :: more ∧
        vs.length = 2 ∧ vs[1]? = some .null) ∧
      ∃ peak, table.emit.2 = .ok ⟨1, peak⟩ ∧
        IsGreatest {d | ∃ m ∈ [row, push .null], ∃ e, m.emit.2 = .ok e ∧ d = 3 + e.peak.toInt}
          peak.toInt := by
  intro outside row table
  have hnull : (Component.reference "[I").Holds Literal.null.value :=
    Eq.refl Computational.reference
  have hnumbers : ∀ m ∈ [push (.int 70000), push (.int (-1))],
      IsElement outside (.primitive .int) m :=
    List.forall_mem_cons.mpr ⟨isElement_push True.intro,
      List.forall_mem_singleton.mpr (isElement_push True.intro)⟩
  have hrows : ∀ m ∈ [row, push .null], IsElement outside (.reference "[I") m :=
    List.forall_mem_cons.mpr ⟨isElement_arrayLiteral hnumbers (by decide) "[I",
      List.forall_mem_singleton.mpr (isElement_push hnull)⟩
  obtain ⟨c, _, _, hreference, hbuilds⟩ :=
    arrayLiteral_builds_array outside (.array (.primitive .int)) (by decide)
  obtain rfl : c = .reference "[I" := hreference fun p h => by cases h
  obtain ⟨_, hrun, peak, hreport, _, hpeak⟩ := hbuilds [row, push .null] (by decide) hrows
  obtain ⟨vs, next, more, hnext, hstack, harrays, hlength, hvalues⟩ := hrun ⟨[.int 9], [], ()⟩
  refine ⟨hrows, ⟨vs, next, more, hnext, hstack, harrays, hlength, ?_⟩, peak, hreport,
    hpeak (by decide) (List.forall_mem_cons.mpr ⟨?_, List.forall_mem_singleton.mpr ?_⟩)⟩
  · obtain ⟨v, hv, _, hunique⟩ := hvalues 1 (push .null) rfl
    rw [hv, hunique .null fun start => ⟨_, pushesOne_push hnull start⟩]
  · intro e he
    have hrow : row.effect = ⟨1, 4⟩ := by decide +kernel
    rw [emit_eq (isValid_arrayLiteral hnumbers), hrow] at he
    cases he
    decide
  · rintro e ⟨⟩
    decide

/-- The peak of a literal wraps around for an element whose peak is the largest 64-bit number. -/
theorem arrayLiteral_peak_wraps :
    let outside : Outside Unit := fun _ _ => none
    let m := custom [.plain (Opcode.iconstM1.plus 1)] ⟨1, 9223372036854775807⟩ true
    IsElement outside (.primitive .int) m ∧ m.emit.2 = .ok ⟨1, 9223372036854775807⟩ ∧
      (arrayLiteral (.primitive .int) [m]).emit.2 = .ok ⟨1, 4⟩ := by
  refine ⟨⟨rfl, ⟨_, rfl, by decide⟩, fun s => ?_⟩, rfl, rfl⟩
  exact ⟨.int 0, s.push (.int 0), run?_push (.int 0), rfl, List.prefix_refl _, True.intro⟩

end Manipulation

end OperandStack
