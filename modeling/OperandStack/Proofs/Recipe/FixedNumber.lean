import OperandStack.Proofs.Body.Assignment
import OperandStack.Proofs.Body.Verified
import OperandStack.Proofs.Code.Evaluation
import OperandStack.Proofs.Recipe.Resolution
import OperandStack.Proofs.Type.Description

/-!
# Fixed numbers

A recipe may have a method return a fixed number, of a given integral type or of the one
that its size implies. A number is accepted exactly if it lies in the range of its type, and
it is pushed unchanged. Widening never leads to a smaller range, so a number that a method
returns also lies in the range of the return type.
-/

namespace OperandStack

namespace Primitive

/-- The sorts of whole numbers. -/
def integral : List Primitive := [byte, short, char, int, long]

/-- Whether a number lies in the range of a sort of whole numbers. Chars have no sign. -/
def Spans : Primitive → Int → Prop
  | byte, n => -2 ^ 7 ≤ n ∧ n < 2 ^ 7
  | short, n => -2 ^ 15 ≤ n ∧ n < 2 ^ 15
  | char, n => 0 ≤ n ∧ n < 2 ^ 16
  | int, n => -2 ^ 31 ≤ n ∧ n < 2 ^ 31
  | long, n => -2 ^ 63 ≤ n ∧ n < 2 ^ 63
  | _, _ => False

instance : (p : Primitive) → (n : Int) → Decidable (p.Spans n)
  | byte, _ => inferInstanceAs (Decidable (_ ∧ _))
  | short, _ => inferInstanceAs (Decidable (_ ∧ _))
  | char, _ => inferInstanceAs (Decidable (_ ∧ _))
  | int, _ => inferInstanceAs (Decidable (_ ∧ _))
  | long, _ => inferInstanceAs (Decidable (_ ∧ _))
  | boolean, _ => inferInstanceAs (Decidable False)
  | float, _ => inferInstanceAs (Decidable False)
  | double, _ => inferInstanceAs (Decidable False)

/-- Every number that a recipe can hold is a long. -/
theorem long_spans (v : Int64) : long.Spans v.toInt := ⟨v.le_toInt, v.toInt_lt⟩

/-- All sorts but one have at most 32 bits. -/
theorem integral_cases {p : Primitive} (hp : p ∈ integral) (hlong : p ≠ long) :
    p = byte ∨ p = short ∨ p = char ∨ p = int := by
  simp only [integral, List.mem_cons, List.not_mem_nil, or_false, hlong] at hp
  exact hp

/-- The sorts of at most 32 bits lie within that of ints. -/
theorem Spans.int {p : Primitive} {n : Int} (hp : p ∈ integral) (hlong : p ≠ long)
    (h : p.Spans n) : Primitive.int.Spans n := by
  rcases integral_cases hp hlong with rfl | rfl | rfl | rfl <;> simp only [Spans] at h ⊢ <;> omega

/-- A sort ahead of another one by a step has all of its numbers. -/
theorem WidensDirectly.spans {p q : Primitive} (h : p.WidensDirectly q) (hq : q ∈ integral) :
    p ∈ integral ∧ ∀ n, p.Spans n → q.Spans n := by
  cases h with
  | longToFloat => exact absurd hq (by decide)
  | floatToDouble => exact absurd hq (by decide)
  | _ =>
    refine ⟨by decide, fun n hn => ?_⟩
    simp only [Spans] at hn ⊢
    omega

/-- No number is lost by widening to a sort of whole numbers. -/
theorem Widens.spans {p q : Primitive} (h : p.Widens q) (hq : q ∈ integral) {n : Int}
    (hn : p.Spans n) : q.Spans n := by
  induction h with
  | refl => exact hn
  | tail _ hstep ih =>
    obtain ⟨hbefore, hmore⟩ := hstep.spans hq
    exact hmore n (ih hbefore)

end Primitive

/-- The whole number that a value is. -/
def Value.number? : Value → Option Int
  | int v => some v.toInt
  | long v => some v.toInt
  | _ => none

open Primitive (integral)

variable {table : TypeTable} {v : Int64} {typeName : String} {p : Primitive}

/-- The check of a number is a check of its range. -/
theorem fitsPrimitive_iff (hp : p ∈ integral) (hlong : p ≠ .long) :
    fitsPrimitive p v = true ↔ p.Spans v.toInt := by
  rcases Primitive.integral_cases hp hlong with rfl | rfl | rfl | rfl <;>
    simp only [fitsPrimitive, Primitive.Spans, Bool.and_eq_true, decide_eq_true_eq,
      Int64.le_iff_toInt_le, Int64.reduceToInt] <;>
    omega

/-- The literal of a number in a sort that spans it. Only longs take all 64 bits. -/
def numberLiteral (p : Primitive) (v : Int64) : Literal :=
  if p = .long then .long v else .int v.toInt32

/-- A number is fitted to a sort exactly if the sort spans it. -/
theorem fittingLiteral?_integer (hp : p ∈ integral) :
    p.Spans v.toInt ∧ fittingLiteral? (.primitive p) (some (.integer v)) =
        some (numberLiteral p v, .primitive p) ∨
      ¬ p.Spans v.toInt ∧ fittingLiteral? (.primitive p) (some (.integer v)) = none := by
  by_cases hlong : p = .long
  · subst hlong
    exact Or.inl ⟨Primitive.long_spans v, rfl⟩
  · have hcheck : fittingLiteral? (.primitive p) (some (.integer v)) =
        if fitsPrimitive p v then some (.int v.toInt32, .primitive p) else none := by
      rcases Primitive.integral_cases hp hlong with rfl | rfl | rfl | rfl <;> rfl
    rw [hcheck, ← fitsPrimitive_iff hp hlong, numberLiteral, if_neg hlong]
    by_cases hfits : fitsPrimitive p v = true <;> simp [hfits]

/-- Cutting a number to 32 bits keeps it if a sort of at most 32 bits spans it. -/
theorem number?_numberLiteral (hp : p ∈ integral) (hspans : p.Spans v.toInt) :
    (numberLiteral p v).value.number? = some v.toInt := by
  unfold numberLiteral
  by_cases hlong : p = .long
  · rw [if_pos hlong]
    rfl
  · rw [if_neg hlong]
    obtain ⟨hlow, hhigh⟩ := hspans.int hp hlong
    have hcut : v.toInt32.toInt = v.toInt := by
      rw [Int64.toInt_toInt32]
      exact Int.bmod_eq_of_le hlow hhigh
    exact congrArg some hcut

/-- The literal for a whole number is of the sort it is asked for. -/
theorem sort_numberLiteral (hp : p ∈ integral) : (numberLiteral p v).value.sort = p.sort := by
  by_cases hlong : p = .long
  · subst hlong
    rfl
  · rcases Primitive.integral_cases hp hlong with rfl | rfl | rfl | rfl <;> rfl

/-- A value is fitted to the type that is given or implied, or refused as an invalid input. -/
theorem resolveFixed_eq_of_describe {value : Option Toml.Value} {name : String} {type : TypeDesc}
    (hname : (if typeName = "" then impliedType value else .ok typeName) = .ok name)
    (htype : table.describe name = .ok type) :
    ∃ r : Report, r.kind = .invalidInput ∧
      resolveFixed table value typeName = match fittingLiteral? type value with
        | some result => .ok result
        | none => .error (.report r) := by
  let shown := value.map Toml.Value.text
  refine ⟨{
    phase := some .load
    kind := .invalidInput
    type := type.text
    value := shown
    detail := "value " ++ shown.getD "<nil>" ++ " does not fit " ++ type.text }, rfl, ?_⟩
  unfold resolveFixed
  by_cases hempty : typeName = ""
  · rw [if_pos hempty] at hname
    simp only [if_pos hempty, hname, bind, Except.bind, htype]
    cases fittingLiteral? type value <;> rfl
  · rw [if_neg hempty] at hname
    cases hname
    simp only [if_neg hempty, bind, Except.bind, htype]
    cases fittingLiteral? type value <;> rfl

/-- The sort of a number in a recipe: that of the type given for it, or ints if these span it and
longs if not. -/
inductive NumberSort (table : TypeTable) (v : Int64) : String → Primitive → Prop where
  | given {typeName : String} {p : Primitive} (h : table.describe typeName = .ok (.primitive p))
      (hp : p ∈ integral) : NumberSort table v typeName p
  | impliedInt (h : Primitive.int.Spans v.toInt) : NumberSort table v "" .int
  | impliedLong (h : ¬ Primitive.int.Spans v.toInt) : NumberSort table v "" .long

namespace NumberSort

theorem mem_integral (h : NumberSort table v typeName p) : p ∈ integral := by
  cases h with
  | given _ hp => exact hp
  | _ => decide

/-- The sort that the size of a number implies spans it. -/
theorem spans_of_implied (h : NumberSort table v "" p) : p.Spans v.toInt := by
  cases h with
  | given h =>
    have hempty : table.describe "" = .error (.of .describe .invalidInput "empty type name") := rfl
    rw [hempty] at h
    cases h
  | impliedInt h => exact h
  | impliedLong _ => exact Primitive.long_spans v

/-- What comes of a number depends on its sort alone, however that was told. -/
theorem resolveFixed_cases (h : NumberSort table v typeName p) :
    p.Spans v.toInt ∧ resolveFixed table (some (.integer v)) typeName =
        .ok (numberLiteral p v, .primitive p) ∨
      ¬ p.Spans v.toInt ∧ ∃ r : Report, r.kind = .invalidInput ∧
        resolveFixed table (some (.integer v)) typeName = .error (.report r) := by
  have hfits : fitsPrimitive .int v = true ↔ Primitive.int.Spans v.toInt :=
    fitsPrimitive_iff (by decide) (by decide)
  have hname : ∃ name, (if typeName = "" then impliedType (some (.integer v))
      else .ok typeName) = .ok name ∧ table.describe name = .ok (.primitive p) := by
    cases h with
    | given h hp =>
      have hempty : typeName ≠ "" := by
        rintro rfl
        cases h
      exact ⟨typeName, if_neg hempty, h⟩
    | impliedInt h => exact ⟨"int", by simp [impliedType, hfits.mpr h], rfl⟩
    | impliedLong h => exact ⟨"long", by simp [impliedType, mt hfits.mp h], rfl⟩
  obtain ⟨name, hname, htype⟩ := hname
  obtain ⟨r, hkind, hresolve⟩ := resolveFixed_eq_of_describe hname htype
  rw [hresolve]
  rcases fittingLiteral?_integer (v := v) h.mem_integral with ⟨hspans, hfit⟩ | ⟨hspans, hfit⟩
  · rw [hfit]
    exact Or.inl ⟨hspans, rfl⟩
  · rw [hfit]
    exact Or.inr ⟨hspans, r, hkind, rfl⟩

end NumberSort

/-- The one instruction for a number has the number for its value. -/
theorem instructions_push_numberLiteral (hp : p ∈ integral) (hspans : p.Spans v.toInt) :
    ∃ i w, (Recording.ofSteps
        (Manipulation.push (numberLiteral p v)).emit.1).instructions.toList = [i] ∧
      i.value? = some w ∧ w.sort = p.sort ∧ w.number? = some v.toInt := by
  refine ⟨(numberLiteral p v).push.step.instruction, (numberLiteral p v).value, ?_,
    (numberLiteral p v).pushedBy_push.value_eq, sort_numberLiteral hp,
    number?_numberLiteral hp hspans⟩
  rw [Literal.steps_push, Recording.instructions_ofSteps]
  rfl

/-- A method with a fixed body returns what its value and value type are resolved to. -/
theorem MethodDecl.implementation_eq_fixed {d : MethodDecl} {fields : List Field}
    {implementation : Implementation} (hbody : d.body = "fixed")
    (h : d.implementation table fields = .ok implementation) :
    ∃ literal type, resolveFixed table d.value d.valueType = .ok (literal, type) ∧
      implementation = .fixed (Manipulation.push literal) type := by
  rw [MethodDecl.implementation, hbody] at h
  obtain ⟨⟨literal, type⟩, hfixed, h⟩ := exists_ok_of_bind h
  cases h
  exact ⟨literal, type, hfixed, rfl⟩

/-- A fixed body of a primitive sort returns only what that sort widens to. -/
theorem Implementation.widens_of_fixed {value body : Manipulation} {m : Method} {q : Primitive}
    (h : (fixed value (.primitive p)).body m = .ok body) (hreturns : m.returns = .primitive q) :
    p.Widens q := by
  obtain ⟨result, hresult, _⟩ := exists_ok_of_bind h
  obtain ⟨conversion, hconversion, _⟩ := exists_ok_of_bind hresult
  obtain ⟨rfl, hvalid⟩ := assigning_eq_ok hconversion
  rw [hreturns] at hvalid
  exact Manipulation.isValid_widenPrimitive_iff.mp hvalid

/-- A method that is resolved with a fixed number and has a body returns a sort that spans the
number, if it returns whole numbers. -/
theorem NumberSort.spans_returns {owner : TypeDesc} {fields : List Field} {d : MethodDecl}
    {m : PlannedMethod} {body : Manipulation} {q : Primitive}
    (h : NumberSort table v d.valueType p) (hbody : d.body = "fixed")
    (hvalue : d.value = some (.integer v)) (hm : d.resolve table owner fields = .ok m)
    (hmethod : m.implementation.body m.method = .ok body)
    (hreturns : m.method.returns = .primitive q) (hq : q ∈ integral) : q.Spans v.toInt := by
  obtain ⟨literal, type, hfixed, himplementation⟩ :=
    MethodDecl.implementation_eq_fixed hbody (MethodDecl.resolve_eq_ok_iff.mp hm).implementation_eq
  rw [hvalue] at hfixed
  rcases h.resolveFixed_cases with ⟨hspans, hok⟩ | ⟨_, r, _, herror⟩
  · rw [hok] at hfixed
    cases hfixed
    rw [himplementation] at hmethod
    exact (Implementation.widens_of_fixed hmethod hreturns).spans hq hspans
  · rw [herror] at hfixed
    cases hfixed

/-- No fixed number is cut. A number is accepted exactly if the sort that it is given, or that its
size implies, spans it; then it is pushed as a value of that sort by an instruction that has exactly
this number for its value. All other numbers are refused as invalid inputs. Where a method that is
resolved with such a number has a body and returns whole numbers, its return type spans the number.
-/
theorem resolveFixed_number_exact (h : NumberSort table v typeName p) :
    ((∃ result, resolveFixed table (some (.integer v)) typeName = .ok result) ↔
      p.Spans v.toInt) ∧
    (typeName = "" → p.Spans v.toInt) ∧
    (∀ literal type, resolveFixed table (some (.integer v)) typeName = .ok (literal, type) →
      type = .primitive p ∧
      ∃ i w, (Recording.ofSteps (Manipulation.push literal).emit.1).instructions.toList = [i] ∧
        i.value? = some w ∧ w.sort = p.sort ∧ w.number? = some v.toInt) ∧
    (∀ e, resolveFixed table (some (.integer v)) typeName = .error e →
      ∃ r, e = .report r ∧ r.kind = .invalidInput) ∧
    ∀ (owner : TypeDesc) (fields : List Field) (d : MethodDecl) (m : PlannedMethod)
      (body : Manipulation) (q : Primitive), d.body = "fixed" → d.value = some (.integer v) →
      d.valueType = typeName → d.resolve table owner fields = .ok m →
      m.implementation.body m.method = .ok body → m.method.returns = .primitive q →
      q ∈ integral → q.Spans v.toInt := by
  have himplied : typeName = "" → p.Spans v.toInt := by
    rintro rfl
    exact h.spans_of_implied
  have hmethods : ∀ (owner : TypeDesc) (fields : List Field) (d : MethodDecl) (m : PlannedMethod)
      (body : Manipulation) (q : Primitive), d.body = "fixed" → d.value = some (.integer v) →
      d.valueType = typeName → d.resolve table owner fields = .ok m →
      m.implementation.body m.method = .ok body → m.method.returns = .primitive q →
      q ∈ integral → q.Spans v.toInt := by
    rintro owner fields d m body q hbody hvalue rfl hm hmethod hreturns hq
    exact h.spans_returns hbody hvalue hm hmethod hreturns hq
  rcases h.resolveFixed_cases with ⟨hspans, hok⟩ | ⟨hspans, r, hkind, herror⟩
  · rw [hok]
    refine ⟨iff_of_true ⟨_, rfl⟩ hspans, himplied, ?_, nofun, hmethods⟩
    rintro literal type ⟨⟩
    exact ⟨rfl, instructions_push_numberLiteral h.mem_integral hspans⟩
  · rw [herror]
    refine ⟨iff_of_false nofun hspans, himplied, nofun, ?_, hmethods⟩
    rintro e ⟨⟩
    exact ⟨r, rfl, hkind⟩

/-- The greatest char is returned as an int, and no number below zero is a char. -/
theorem resolveFixed_number_exact_char :
    let limit : MethodDecl := {
      name := "limit", returns := "int", body := "fixed", value := some (.integer 65535)
      valueType := "char" }
    ∃ m body, limit.resolve .builtin .object [] = .ok m ∧
      m.implementation.body m.method = .ok body ∧ m.method.returns = .primitive .int ∧
      Primitive.int.Spans 65535 ∧
      ∃ r, resolveFixed .builtin (some (.integer (-1))) "char" = .error (.report r) ∧
        r.kind = .invalidInput := by
  intro limit
  have hchar : ∀ v, NumberSort .builtin v "char" .char := fun v =>
    .given (TypeTable.describe_keyword .builtin .char) (by decide)
  let method : Method := ⟨.object, "limit", .empty, .primitive .int, []⟩
  let m : PlannedMethod :=
    ⟨method, .fixed (Manipulation.push (numberLiteral .char 65535)) (.primitive .char), "fixed"⟩
  have hfixed : resolveFixed .builtin (some (.integer 65535)) "char" =
      .ok (numberLiteral .char 65535, .primitive .char) := by
    rcases (hchar 65535).resolveFixed_cases with ⟨_, hok⟩ | ⟨hspans, _⟩
    · exact hok
    · exact absurd (by decide) hspans
  have hm : limit.resolve .builtin .object [] = .ok m := by
    simp only [limit, MethodDecl.resolve, MethodDecl.implementation, hfixed]
    rfl
  obtain ⟨_, _, _, _, hmethods⟩ := resolveFixed_number_exact (hchar 65535)
  obtain ⟨hrefused, _, _, herror, _⟩ := resolveFixed_number_exact (hchar (-1))
  refine ⟨m, _, hm, rfl, rfl,
    hmethods .object [] limit m _ .int rfl rfl rfl hm rfl rfl (by decide), ?_⟩
  cases hminus : resolveFixed .builtin (some (.integer (-1))) "char" with
  | ok result => exact absurd (hrefused.mp ⟨result, hminus⟩) (by decide)
  | error e =>
    obtain ⟨r, rfl, hkind⟩ := herror e hminus
    exact ⟨r, rfl, hkind⟩

end OperandStack
