import OperandStack.Proofs.Machine.Atoms

/-!
# The machine of sorts

A machine that knows the sort of every value on the stack and in the local variables.
A step runs only if it finds exactly the sorts that its action asks for. A run ends
with a return or a throw, and nothing may stand behind it.
-/

namespace OperandStack

/-- The sorts on the stack from the top on, and the sort of the value that starts at each slot of
the local variables. -/
structure SortState where
  stack : List Computational
  locals : Nat → Option Computational

/-- Where a run stands. -/
inductive Progress where
  | running (s : SortState)
  /-- The method has returned, with a value or without, and left values on the stack. -/
  | returned (result : Option Computational) (left : List Computational)
  /-- The method has thrown a reference and left values on the stack. -/
  | thrown (left : List Computational)

namespace SortState

/-- Takes values of the given sorts from the top of a stack. -/
def popAll? : (sorts stack : List Computational) → Option (List Computational)
  | [], stack => some stack
  | c :: sorts, d :: stack => if c = d then popAll? sorts stack else none
  | _ :: _, [] => none

/-- Splits whole values of some slots from the top of a stack. -/
def takeSlots? (slots : Nat) : List Computational →
    Option (List Computational × List Computational)
  | [] => if slots = 0 then some ([], []) else none
  | c :: rest =>
    if slots = 0 then some ([], c :: rest)
    else if c.size.slots.toNat ≤ slots then
      (takeSlots? (slots - c.size.slots.toNat) rest).map fun (taken, left) => (c :: taken, left)
    else none

/-- The local variables after a value was put at a slot. Values that it overlaps are gone. -/
def put (locals : Nat → Option Computational) (c : Computational) (slot i : Nat) :
    Option Computational :=
  if i = slot then some c
  else if slot < i ∧ i < slot + c.size.slots.toNat then none
  else (locals i).filter fun d => decide (slot < i ∨ i + d.size.slots.toNat ≤ slot)

end SortState

open SortState in
/-- The state after an action, if it finds the sorts it asks for. -/
def Action.perform? (s : SortState) : Action → Option Progress
  | exchange pops pushes =>
    (popAll? pops s.stack).map fun rest => .running ⟨pushes ++ rest, s.locals⟩
  | copy slots under =>
    (takeSlots? slots s.stack).bind fun (top, below) =>
      (takeSlots? under below).map fun (middle, rest) =>
        .running ⟨top ++ (middle ++ (top ++ rest)), s.locals⟩
  | drop slots => (takeSlots? slots s.stack).map fun (_, rest) => .running ⟨rest, s.locals⟩
  | load c slot => if s.locals slot = some c then some (.running ⟨c :: s.stack, s.locals⟩) else none
  | store c slot =>
    (popAll? [c] s.stack).map fun rest => .running ⟨rest, put s.locals c slot⟩
  | increment slot => if s.locals slot = some .int then some (.running s) else none
  | leave result => (popAll? result.toList s.stack).map (.returned result)
  | raise => (popAll? [.reference] s.stack).map .thrown

/-- Runs steps. Nothing runs after a return or a throw. -/
def SortState.run? (s : SortState) : List Step → Option Progress
  | [] => some (.running s)
  | step :: rest =>
    match step.action?.bind (Action.perform? s) with
    | some (.running s) => s.run? rest
    | some ended => if rest = [] then some ended else none
    | none => none

namespace SortState

/-- Sorts that were put on a stack can be taken from it. -/
@[simp] theorem popAll?_append (sorts rest : List Computational) :
    popAll? sorts (sorts ++ rest) = some rest := by
  induction sorts with
  | nil => rfl
  | cons c sorts ih => rw [List.cons_append, popAll?, if_pos rfl, ih]

@[simp] theorem takeSlots?_zero (stack : List Computational) :
    takeSlots? 0 stack = some ([], stack) := by
  cases stack <;> simp [takeSlots?]

/-- The top value can be split off by its own slots. -/
@[simp] theorem takeSlots?_top (c : Computational) (rest : List Computational) :
    takeSlots? c.size.slots.toNat (c :: rest) = some ([c], rest) := by
  have hpos : c.size.slots.toNat ≠ 0 := by cases c <;> decide
  rw [takeSlots?, if_neg hpos, if_pos (Nat.le_refl _), Nat.sub_self, takeSlots?_zero]
  rfl

/-- A run through code in turn goes on where the first piece stops. -/
theorem run?_append {s middle : SortState} {first : List Step} (second : List Step)
    (h : s.run? first = some (.running middle)) :
    s.run? (first ++ second) = middle.run? second := by
  induction first generalizing s with
  | nil =>
    cases h
    rfl
  | cons step rest ih =>
    rw [run?] at h
    rw [List.cons_append, run?]
    split at h
    · exact ih h
    · next hne _ =>
      split at h
      · cases h
        exact absurd rfl (hne middle)
      · cases h
    · cases h

end SortState

/-- Whether code replaces the sorts on top of the stack by others, whatever is below, and keeps the
local variables. -/
def Moves (locals : Nat → Option Computational) (code : List Step)
    (before after : List Computational) : Prop :=
  ∀ rest, SortState.run? ⟨before ++ rest, locals⟩ code = some (.running ⟨after ++ rest, locals⟩)

section Moves

variable {locals : Nat → Option Computational} {first second : List Step}
  {xs ys zs : List Computational}

theorem Moves.nil (locals : Nat → Option Computational) (xs : List Computational) :
    Moves locals [] xs xs :=
  fun _ => rfl

/-- Code in turn replaces what the first piece needs by what the second one leaves. -/
theorem Moves.append (hfirst : Moves locals first xs ys) (hsecond : Moves locals second ys zs) :
    Moves locals (first ++ second) xs zs := by
  intro rest
  rw [SortState.run?_append second (hfirst rest)]
  exact hsecond rest

/-- What is below does not matter. -/
theorem Moves.below (h : Moves locals first xs ys) (zs : List Computational) :
    Moves locals first (xs ++ zs) (ys ++ zs) := by
  intro rest
  rw [List.append_assoc, List.append_assoc]
  exact h (zs ++ rest)

end Moves

namespace Atom

variable {locals : Nat → Option Computational} {a : Atom}

/-- An atom with one action emits one step that has it. -/
private theorem exists_step {action : Action} (h : a.Regular) (ha : a.actions = [action]) :
    ∃ step : Step, a.steps = [step] ∧ step.action? = some action := by
  have hactions := steps_action? h
  rw [ha] at hactions
  match hsteps : a.steps with
  | [] => simp [hsteps] at hactions
  | [step] =>
    rw [hsteps] at hactions
    exact ⟨step, rfl, List.singleton_inj.mp hactions⟩
  | _ :: _ :: _ => simp [hsteps] at hactions

/-- An atom with a single action moves what that action moves. -/
theorem moves_of_perform? {action : Action} {before after : List Computational} (h : a.Regular)
    (ha : a.actions = [action])
    (hperform : ∀ rest, action.perform? ⟨before ++ rest, locals⟩ =
      some (.running ⟨after ++ rest, locals⟩)) : Moves locals a.steps before after := by
  obtain ⟨step, hsteps, haction⟩ := exists_step h ha
  intro rest
  rw [hsteps]
  simp only [SortState.run?, haction, Option.bind_some, hperform rest]

/-- An atom that exchanges values. -/
theorem moves_exchange {pops pushes : List Computational} (h : a.Regular)
    (ha : a.actions = [.exchange pops pushes]) : Moves locals a.steps pops pushes := by
  refine moves_of_perform? h ha fun rest => ?_
  simp [Action.perform?]

/-- A load of a variable that holds a value of the sort. -/
theorem moves_load {c : Computational} {slot : Int64} (hslot : 0 ≤ slot)
    (hlocal : locals slot.toInt.toNat = some c) : Moves locals (load c slot).steps [] [c] := by
  refine moves_of_perform? hslot rfl fun rest => ?_
  simp only [Action.perform?, hlocal, if_true, List.nil_append, List.singleton_append]

/-- The copy of the top value. -/
theorem moves_duplicate (c : Computational) :
    Moves locals (duplicate c.size).steps [c] [c, c] := by
  have hactions : (duplicate c.size).actions = [.copy c.size.slots.toNat 0] := by cases c <;> rfl
  refine moves_of_perform? c.size_usual hactions fun rest => ?_
  simp [Action.perform?]

/-- The drop of the top value. -/
theorem moves_discard (c : Computational) : Moves locals (discard c.size).steps [c] [] := by
  have hactions : (discard c.size).actions = [.drop c.size.slots.toNat] := by cases c <;> rfl
  refine moves_of_perform? c.size_usual hactions fun rest => ?_
  simp [Action.perform?]

/-- A run that ends with an atom that returns. -/
theorem run?_giveBack (result : Option Computational) (rest : List Computational) :
    SortState.run? ⟨result.toList ++ rest, locals⟩ (giveBack result).steps =
      some (.returned result rest) := by
  obtain ⟨step, hsteps, haction⟩ := exists_step (a := giveBack result) True.intro rfl
  rw [hsteps]
  simp [SortState.run?, haction, Action.perform?]

/-- A throw ends the run and takes the reference on top. -/
theorem run?_throwTop (rest : List Computational) :
    SortState.run? ⟨.reference :: rest, locals⟩ throwTop.steps = some (.thrown rest) := by
  obtain ⟨step, hsteps, haction⟩ := exists_step (a := throwTop) True.intro rfl
  rw [hsteps]
  simp [SortState.run?, haction, Action.perform?, SortState.popAll?]

end Atom

end OperandStack
