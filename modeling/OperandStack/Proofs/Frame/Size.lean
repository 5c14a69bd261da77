import Mathlib.Data.List.Induction
import Mathlib.Order.Bounds.Basic
import OperandStack.Proofs.Emission.Sink
import OperandStack.Proofs.Frame.Access

/-!
# Frame sizes of recorded methods

The local variables of an assembled method are those of its arguments and those that
its recorded instructions reach, neither fewer nor more. Emission counts them from
64-bit slots before anything is recorded. The limit on the frame and the range of the
slots in a code array together exclude the slots for which the two differ.
-/

namespace OperandStack

namespace Recording

/-- One instruction is recorded for every step. -/
theorem instructions_ofSteps (steps : Array Step) :
    (ofSteps steps).instructions.toList = steps.toList.map Step.instruction := by
  have hfold : ∀ (code : List Step) (r : Recording), (code.foldl record r).instructions.toList =
      r.instructions.toList ++ code.map Step.instruction := by
    intro code
    induction code with
    | nil => simp
    | cons s code ih =>
      intro r
      rw [List.foldl_cons, ih]
      simp [record]
  rw [ofSteps, recordAll, ← Array.foldl_toList, hfold]
  rfl

end Recording

/-- The ends of the local variables that steps read or write. -/
def localEnds (code : List Step) : Set Int :=
  {stop | ∃ s ∈ code, ∃ e, s.localEnd? = some e ∧ e.toInt = stop}

/-- A step without a local variable adds no end. -/
theorem localEnds_concat_of_none {s : Step} (h : s.localEnd? = none) (code : List Step) :
    localEnds (code ++ [s]) = localEnds code := by
  simp [localEnds, h, or_and_right, exists_or]

/-- A step with a local variable adds the end of that variable. -/
theorem localEnds_concat_of_some {s : Step} {e : Int64} (h : s.localEnd? = some e)
    (code : List Step) : localEnds (code ++ [s]) = insert e.toInt (localEnds code) := by
  ext stop
  simp [localEnds, h, or_and_right, exists_or, or_comm, eq_comm]

/-- A step extends the local variables up to its end. -/
theorem toInt_touchLocal {s : Step} {e : Int64} (h : s.localEnd? = some e) (n : Int64) :
    (touchLocal n s).toInt = max e.toInt n.toInt := by
  simp only [touchLocal, h, Int64.lt_iff_toInt_lt]
  split <;> omega

/-- The local variables counted by steps are the greatest of those there are at the start and of
those that the steps reach. -/
theorem isGreatest_foldl_touchLocal (code : List Step) (n : Int64) :
    IsGreatest (insert n.toInt (localEnds code)) (code.foldl touchLocal n).toInt := by
  induction code using List.reverseRecOn with
  | nil =>
    have hnone : localEnds [] = ∅ := by simp [localEnds]
    rw [hnone, insert_empty_eq]
    exact isGreatest_singleton
  | append_singleton code s ih =>
    rw [List.foldl_append, List.foldl_cons, List.foldl_nil]
    cases h : s.localEnd? with
    | none =>
      have hsame : touchLocal (code.foldl touchLocal n) s = code.foldl touchLocal n := by
        simp only [touchLocal, h]
      rw [hsame, localEnds_concat_of_none h]
      exact ih
    | some e =>
      rw [toInt_touchLocal h, localEnds_concat_of_some h, Set.insert_comm]
      exact ih.insert e.toInt

/-- The local variables of a method are the greatest of those of its arguments and of those that
its steps reach. -/
theorem isGreatest_maxLocalsOf (m : Method) (code : List Step) :
    IsGreatest (insert (Int64.ofNat m.slots).toInt (localEnds code))
      (maxLocalsOf m code.toArray).toInt := by
  have hfold : maxLocalsOf m code.toArray = code.foldl touchLocal (Int64.ofNat m.slots) := by
    simp [maxLocalsOf]
  rw [hfold]
  exact isGreatest_foldl_touchLocal code (Int64.ofNat m.slots)

/-- Steps whose ends are within the limit of the format and that can be laid down are recorded as
instructions that reach the same ends. -/
theorem localEnds_eq_reached {code : List Step} (haddressed : ∀ s ∈ code, s.Addressed)
    (haddressable : ∀ i ∈ code.map Step.instruction, i.Addressable)
    (hbound : ∀ stop ∈ localEnds code, stop ≤ 65535) :
    localEnds code = {stop | ∃ i ∈ code.map Step.instruction, i.ReachesTo stop} := by
  have hstep : ∀ s ∈ code, ∀ stop,
      s.instruction.ReachesTo stop ↔ ∃ e, s.localEnd? = some e ∧ e.toInt = stop := by
    intro s hs
    refine Step.reachesTo_iff (haddressed s hs) (haddressable _ (List.mem_map_of_mem hs)) ?_
    intro e he
    exact hbound e.toInt ⟨s, hs, e, he, rfl⟩
  ext stop
  constructor
  · rintro ⟨s, hs, hend⟩
    exact ⟨_, List.mem_map_of_mem hs, (hstep s hs stop).mpr hend⟩
  · rintro ⟨i, hi, hreaches⟩
    obtain ⟨s, hs, rfl⟩ := List.mem_map.mp hi
    exact ⟨s, hs, (hstep s hs stop).mp hreaches⟩

/-- A limit in force is at most that of the format. -/
theorem Limits.toInt_inForce_le (limit : Int64) : (inForce limit).toInt ≤ 65535 := by
  unfold inForce
  split
  · decide
  · next h =>
    rw [not_or, Int64.not_lt] at h
    exact Int64.le_iff_toInt_le.mp h.2

theorem Limits.inForce_nonneg (limit : Int64) : 0 ≤ inForce limit := by
  unfold inForce
  split
  · decide
  · next h => exact Int64.le_of_lt (Int64.not_le.mp (not_or.mp h).1)

variable {limits : Limits} {m : Method} {body : Manipulation} {code : MethodCode}

/-- Assembly succeeds only with what was emitted and recorded, once it has been laid down. -/
theorem assembleMethod_eq_ok (hencode : limits.skipEncode = false)
    (h : (assembleMethod limits m body).result = .ok code) :
    (emitBody limits m body).failure? = none ∧ code.frame = (emitBody limits m body).frame ∧
      code.recording = .ofSteps (emitBody limits m body).steps ∧
      ∃ pool,
        (encodeCode code.recording.instructions.toList).on .empty = (.ok code.code, pool) := by
  unfold assembleMethod at h
  dsimp only at h
  cases hfailure : (emitBody limits m body).failure? with
  | some e =>
    rw [hfailure] at h
    cases h
  | none =>
    rw [hfailure, hencode] at h
    cases hcode : (encodeCode
      (Recording.ofSteps (emitBody limits m body).steps).instructions.toList).on .empty with
    | mk answer pool =>
      rw [hcode] at h
      cases answer with
      | error e => cases h
      | ok bytes =>
        cases h
        exact ⟨rfl, rfl, rfl, pool, hcode⟩

/-- A frame is refused exactly if it is beyond one of the limits in force. -/
theorem excess?_eq_none_iff {frame : FrameSize} {limits : Limits} {m : Method} :
    frame.excess? limits m = none ↔ frame.maxStack ≤ Limits.inForce limits.maxStack ∧
      frame.maxLocals ≤ Limits.inForce limits.maxLocals := by
  unfold FrameSize.excess?
  dsimp only
  rw [← Int64.not_lt, ← Int64.not_lt]
  split
  · next hstack => simp [hstack]
  · next hstack => split <;> simp [*]

/-- A body is accepted exactly if it is valid and its frame keeps to the limits in force. -/
theorem emitBody_accepted_iff :
    (emitBody limits m body).failure? = none ↔
      body.isValid = true ∧ body.effect.peak ≤ Limits.inForce limits.maxStack ∧
        maxLocalsOf m body.steps.toArray ≤ Limits.inForce limits.maxLocals := by
  unfold emitBody
  cases hvalid : body.isValid with
  | false => simp
  | true => simp [Manipulation.emit_eq hvalid, excess?_eq_none_iff]

/-- A body that is not refused is valid, is sized by its own steps, and keeps to the limit on local
variables. -/
theorem emitBody_of_accepted (h : (emitBody limits m body).failure? = none) :
    body.isValid = true ∧
      (emitBody limits m body).steps = body.steps.toArray ∧
      (emitBody limits m body).frame = ⟨body.effect, body.effect.peak,
        maxLocalsOf m body.steps.toArray, body.steps.length⟩ ∧
      maxLocalsOf m body.steps.toArray ≤ Limits.inForce limits.maxLocals := by
  obtain ⟨hvalid, _, hlocals⟩ := emitBody_accepted_iff.mp h
  have hemitted : emitBody limits m body = ⟨⟨body.effect, body.effect.peak,
      maxLocalsOf m body.steps.toArray, body.steps.toArray.size⟩, body.steps.toArray,
      FrameSize.excess? ⟨body.effect, body.effect.peak, maxLocalsOf m body.steps.toArray,
        body.steps.toArray.size⟩ limits m⟩ := by
    rw [emitBody, if_pos hvalid, Manipulation.emit_eq hvalid]
  rw [hemitted]
  exact ⟨hvalid, rfl, rfl, hlocals⟩

/-- The frame of a recorded method is exact, and the sink that sizes it is transparent. The
recording is that of the body applied directly to an empty one, and of the body applied through a
tracker, which counts the recorded instructions. The local variables are the greatest of those of
the arguments and those that recorded instructions reach, and keep to the limit in force. -/
theorem assembleMethod_frame_exact (hencode : limits.skipEncode = false)
    (hbody : body.Everywhere Atom.AtSlot) (h : (assembleMethod limits m body).result = .ok code) :
    body.applyTo Recording.record .empty = (code.recording, .ok code.frame.effect) ∧
    body.applyTo (FrameTracker.put Recording.record) ⟨.empty, Int64.ofNat m.slots, 0⟩ =
      (⟨code.recording, code.frame.maxLocals, code.frame.instructions⟩,
        .ok code.frame.effect) ∧
    code.frame.instructions = code.recording.instructions.size ∧
    IsGreatest (insert (Int64.ofNat m.slots).toInt
      {stop | ∃ i ∈ code.recording.instructions.toList, i.ReachesTo stop})
      code.frame.maxLocals.toInt ∧
    code.frame.maxLocals ≤ Limits.inForce limits.maxLocals ∧
    code.frame.maxLocals.toInt ≤ 65535 := by
  obtain ⟨haccepted, hframe, hrecording, pool, hcode⟩ := assembleMethod_eq_ok hencode h
  obtain ⟨hvalid, hsteps, hsize, hlimit⟩ := emitBody_of_accepted haccepted
  rw [hsteps] at hrecording
  rw [hsize] at hframe
  have hinstructions : code.recording.instructions.toList = body.steps.map Step.instruction := by
    rw [hrecording, Recording.instructions_ofSteps]
  have hgreatest := isGreatest_foldl_touchLocal body.steps (Int64.ofNat m.slots)
  have hmax : body.steps.foldl touchLocal (Int64.ofNat m.slots) =
      maxLocalsOf m body.steps.toArray := by
    simp [maxLocalsOf]
  rw [hmax] at hgreatest
  have hformat : (maxLocalsOf m body.steps.toArray).toInt ≤ 65535 :=
    Int.le_trans (Int64.le_iff_toInt_le.mp hlimit) (Limits.toInt_inForce_le _)
  -- The limit bounds the ends from above, and the slots have been laid down: no sum has wrapped.
  have haddressable := Instruction.addressable_of_encodeCode hcode
  rw [hinstructions] at haddressable
  have hreached := localEnds_eq_reached (Manipulation.addressed body hbody) haddressable
    fun stop hstop => Int.le_trans (hgreatest.2 (Set.mem_insert_of_mem _ hstop)) hformat
  rw [hframe, hinstructions, ← hreached]
  refine ⟨?_, ?_, ?_, hgreatest, hlimit, hformat⟩
  · rw [Manipulation.applyTo_eq, Manipulation.emit_eq hvalid, hrecording]
    rfl
  · rw [Manipulation.applyTo_eq, Manipulation.emit_eq hvalid, FrameTracker.foldl_put, hrecording]
    simp [maxLocalsOf, Recording.ofSteps, Recording.recordAll]
  · rw [← Array.length_toList, hinstructions, List.length_map]

open Manipulation in
/-- A long argument that is moved to a slot beyond one byte, and an increment of the variable behind
it: the increment reaches furthest. -/
theorem assembleMethod_frame_exact_move :
    let m : Method := ⟨.object, "move", .isStatic, .void, [.primitive .long]⟩
    let body := compose [loadArguments m, store .long 300, increment 302 5, giveBack .void]
    Limits.default.skipEncode = false ∧ body.Everywhere Atom.AtSlot ∧
      ∃ code, (assembleMethod .default m body).result = .ok code ∧
        code.frame.instructions = code.recording.instructions.size ∧
        IsGreatest (insert 2 {stop | ∃ i ∈ code.recording.instructions.toList, i.ReachesTo stop})
          code.frame.maxLocals.toInt ∧
        code.frame.maxLocals.toInt = 303 := by
  intro m body
  have hbuilt : body.Built := by
    refine .compose ?_
    simp only [List.forall_mem_cons]
    exact ⟨.loadArguments m, .store _ _, .increment _ _, .giveBack _, by simp⟩
  have hbody : body.Everywhere Atom.AtSlot :=
    hbuilt.everywhere.combine (fun _ h _ => h.atSlot) hbuilt.everywhere
  have hslots : (Int64.ofNat m.slots).toInt = 2 := by decide
  have hrun : (assembleMethod .default m body).result.map (·.frame.maxLocals) = .ok 303 := by
    decide
  cases hcode : (assembleMethod .default m body).result with
  | error e =>
    rw [hcode] at hrun
    cases hrun
  | ok code =>
    rw [hcode] at hrun
    have hlocals : code.frame.maxLocals = 303 := Except.ok.inj hrun
    obtain ⟨_, _, hcount, hgreatest, _⟩ := assembleMethod_frame_exact rfl hbody hcode
    rw [hslots] at hgreatest
    exact ⟨rfl, hbody, code, rfl, hcount, hgreatest, by rw [hlocals]; rfl⟩

end OperandStack
