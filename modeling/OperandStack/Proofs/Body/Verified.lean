import OperandStack.Body
import OperandStack.Proofs.Body.Arguments

/-!
# Ready-made bodies run on the machine of sorts

Every ready-made body that is built without error and is valid runs from the start of
its method to the end: each step finds the sorts it asks for, and the last one leaves
the method with the value that the method returns, or throws, with nothing left on the
stack.
-/

namespace OperandStack

/-- A run from the start of a method ends as the last piece of its code does. -/
theorem Moves.run?_append {m : Method} {code last : List Step} {xs : List Computational}
    {ended : Progress} (h : Moves m.initialLocals code [] xs)
    (hlast : SortState.run? ⟨xs, m.initialLocals⟩ last = some ended) :
    m.start.run? (code ++ last) = some ended := by
  have hcode := h []
  rw [List.nil_append, List.append_nil] at hcode
  rw [Method.start, SortState.run?_append last hcode, hlast]

namespace Manipulation

variable {locals : Nat → Option Computational}

/-- A call replaces the receiver and the arguments of its method by the result. -/
theorem moves_invoke {i : Invocation} {m : Method} (hmethod : i.method = m) (hmode : i.ModeFits)
    (h : m.Regular) : Moves locals (atom (.invoke i)).steps (m.parameterSorts.reverse ++ m.receiver)
      m.returns.sort?.toList := by
  subst hmethod
  exact Atom.moves_exchange (a := .invoke i) ⟨hmode, h⟩ rfl

/-- Creating an object pushes a reference to it; the constructor is called apart. -/
theorem moves_create {t : TypeDesc} (h : (create t).isValid = true) :
    Moves locals (create t).steps [] [.reference] := by
  unfold create at h ⊢
  split at h
  · rw [isValid] at h
    cases h
  · next hinstances =>
    rw [if_neg hinstances]
    exact Atom.moves_exchange (a := .create t) True.intro rfl

theorem moves_pushInt (n : Nat) : Moves locals (pushInt n).steps [] [.int] :=
  Atom.moves_exchange (a := pushInt n) True.intro rfl

/-- Elements that each push a value of the component are stored, and the array stays. -/
theorem moves_elementSteps {component : Component} {elements : List Manipulation}
    (h : ∀ v ∈ elements, Moves locals v.steps [] [component.sort]) (index : Nat) :
    Moves locals (elementSteps component index elements) [.reference] [.reference] := by
  induction elements generalizing index with
  | nil => exact .nil locals _
  | cons v rest ih =>
    rw [List.forall_mem_cons] at h
    have hcopy : Moves locals (Atom.duplicate .single).steps [.reference]
        [.reference, .reference] :=
      Atom.moves_duplicate .reference
    have hstore : Moves locals (Atom.storeElement component).steps
        [component.sort, .int, .reference] [] :=
      Atom.moves_exchange True.intro rfl
    rw [elementSteps]
    refine hcopy.append (((moves_pushInt index).below _).append ((h.1.below _).append ?_))
    exact (hstore.below [.reference]).append (ih h.2 _)

/-- An array whose elements push its component's sort pushes one reference. -/
theorem moves_arrayLiteral {component : Component} {elements : List Manipulation}
    (h : ∀ v ∈ elements, Moves locals v.steps [] [component.sort]) :
    Moves locals (arrayLiteral component elements).steps [] [.reference] := by
  have hcreate : Moves locals (Atom.createArray component).steps [.int] [.reference] :=
    Atom.moves_exchange True.intro rfl
  rw [steps]
  exact (moves_pushInt elements.length).append (hcreate.append (moves_elementSteps h 0))

end Manipulation

namespace Implementation

open Manipulation

/-- A conversion in a body is the assignment of its types, and a valid one. -/
theorem assigning_eq_ok {m : Method} {source target : TypeDesc} {dynamic : Bool}
    {conversion : Manipulation} (h : assigning m source target dynamic = .ok conversion) :
    conversion = assign source target dynamic ∧ conversion.isValid = true := by
  simp only [assigning] at h
  split at h
  · next hvalid =>
    cases h
    exact ⟨rfl, hvalid⟩
  · cases h

/-- A conversion that a method was given turns one sort into the other. -/
theorem moves_assigning {m : Method} {source target : TypeDesc} {dynamic : Bool}
    {conversion : Manipulation} {locals : Nat → Option Computational}
    (h : assigning m source target dynamic = .ok conversion) :
    Moves locals conversion.steps source.sort?.toList target.sort?.toList := by
  obtain ⟨rfl, hvalid⟩ := assigning_eq_ok h
  exact moves_assign hvalid

/-- Code that leaves the value to return, and nothing else, may be followed by the return. -/
theorem run?_giveBack {m : Method} {code : List Step}
    (h : Moves m.initialLocals code [] m.returns.sort?.toList) :
    m.start.run? (code ++ (giveBack m.returns).steps) = some (.returned m.returns.sort? []) := by
  refine h.run?_append ?_
  have hlast : SortState.run? ⟨m.returns.sort?.toList ++ [], m.initialLocals⟩
      (giveBack m.returns).steps = some (.returned m.returns.sort? []) :=
    Atom.run?_giveBack m.returns.sort? []
  rw [List.append_nil] at hlast
  exact hlast

/-- Code that leaves a value of a type may be followed by the return of that value. -/
theorem run?_returning {m : Method} {t : TypeDesc} {dynamic : Bool} {result : Manipulation}
    {code : List Step} (hresult : returning m t dynamic = .ok result)
    (h : Moves m.initialLocals code [] t.sort?.toList) :
    m.start.run? (code ++ result.steps) = some (.returned m.returns.sort? []) := by
  obtain ⟨conversion, hconversion, hrest⟩ := exists_ok_of_bind hresult
  cases hrest
  rw [steps_compose, List.flatMap_cons, List.flatMap_singleton, ← List.append_assoc]
  exact run?_giveBack (h.append (moves_assigning hconversion))

/-- The receiver of a field access is pushed if the field asks for one. -/
theorem moves_fieldReceiver {m : Method} {f : Field} {receiver : Manipulation}
    (h : fieldReceiver m f = .ok receiver) :
    Moves m.initialLocals receiver.steps [] f.receiver := by
  unfold fieldReceiver at h
  unfold Field.receiver
  split at h
  · next hstatic =>
    cases h
    rw [if_pos hstatic]
    exact .nil _ []
  · next hstatic =>
    rw [if_neg hstatic]
    split at h
    · cases h
    · next hrefused =>
      cases h
      rw [Bool.or_eq_true, not_or, Bool.not_eq_true] at hrefused
      exact moves_loadThis hrefused.1

/-- The parameters are pushed as values of the sorts of the target's parameters. -/
theorem moves_passArguments {m : Method} {dynamic : Bool} (sources targets : List TypeDesc)
    {i : Nat} {arguments : List Manipulation} (h : m.Addressable i)
    (hsources : m.parameters.drop i = sources) (hlength : sources.length = targets.length)
    (harguments : passArguments m dynamic i sources targets = .ok arguments)
    (hvalid : ∀ v ∈ arguments, v.isValid = true) :
    Moves m.initialLocals (arguments.flatMap steps) []
      (targets.filterMap TypeDesc.sort?).reverse := by
  induction sources generalizing targets i arguments with
  | nil =>
    cases targets with
    | nil =>
      cases harguments
      exact .nil _ []
    | cons target targets => cases hlength
  | cons source sources ih =>
    cases targets with
    | nil => cases hlength
    | cons target targets =>
      obtain ⟨hsource, hrest⟩ := Method.parameter_of_drop hsources
      obtain ⟨value, hvalue, hafter⟩ := exists_ok_of_bind harguments
      obtain ⟨conversion, hconversion, hafter⟩ := exists_ok_of_bind hafter
      obtain ⟨others, hothers, hafter⟩ := exists_ok_of_bind hafter
      cases hafter
      simp only [List.forall_mem_cons] at hvalid
      obtain ⟨hload, hnext⟩ := h.moves_loadParameter hsource hvalue hvalid.1
      have hpass := ih targets hnext hrest (Nat.succ.inj hlength) hothers hvalid.2.2
      rw [List.flatMap_cons, List.flatMap_cons, TypeDesc.filterMap_sort?_cons, List.reverse_append,
        TypeDesc.reverse_sort?]
      exact hload.append ((moves_assigning hconversion).append (hpass.below _))

/-- Boxed parameters are references. -/
theorem moves_boxedArguments {m : Method} (types : List TypeDesc) {i : Nat}
    {values : List Manipulation} (h : m.Addressable i) (htypes : m.parameters.drop i = types)
    (hvalues : boxedArguments m i types = .ok values) (hvalid : ∀ v ∈ values, v.isValid = true) :
    ∀ v ∈ values, Moves m.initialLocals v.steps [] [.reference] := by
  induction types generalizing i values with
  | nil =>
    cases hvalues
    simp
  | cons t rest ih =>
    obtain ⟨ht, hrest⟩ := Method.parameter_of_drop htypes
    obtain ⟨value, hvalue, hafter⟩ := exists_ok_of_bind hvalues
    obtain ⟨others, hothers, hafter⟩ := exists_ok_of_bind hafter
    cases hafter
    rw [List.forall_mem_cons] at hvalid ⊢
    obtain ⟨hvalue_valid, hassign_valid⟩ := isValid_compose_pair hvalid.1
    obtain ⟨hload, hnext⟩ := h.moves_loadParameter ht hvalue hvalue_valid
    exact ⟨moves_compose_pair hload (moves_assign hassign_valid), ih hnext hrest hothers hvalid.2⟩

/-- What a method with a ready-made body ends with: a throw, or the return of what it returns. -/
def ending (m : Method) : Implementation → Progress
  | throwing .. => .thrown []
  | _ => .returned m.returns.sort? []

/-- A stub returns the default value of its type. -/
theorem run?_stub (m : Method) :
    m.start.run? (compose [pushDefault m.returns, giveBack m.returns]).steps =
      some (.returned m.returns.sort? []) := by
  rw [steps_compose, List.flatMap_cons, List.flatMap_singleton]
  exact run?_giveBack (moves_pushDefault m.returns)

/-- A fixed value is returned as the method's type asks. -/
theorem run?_fixed {m : Method} {value body : Manipulation} {t : TypeDesc}
    (hvalue : Moves m.initialLocals value.steps [] t.sort?.toList)
    (hbody : (fixed value t).body m = .ok body) :
    m.start.run? body.steps = some (.returned m.returns.sort? []) := by
  obtain ⟨result, hresult, hrest⟩ := exists_ok_of_bind hbody
  cases hrest
  rw [steps_compose, List.flatMap_cons, List.flatMap_singleton]
  exact run?_returning hresult hvalue

/-- A new exception is made by a constructor whose arguments are pushed, and thrown. -/
private theorem run?_construct {m : Method} {exception : TypeDesc} {parameters : List TypeDesc}
    {arguments : Manipulation} {call : Invocation}
    (hcreate : (create exception).isValid = true)
    (harguments : Moves m.initialLocals arguments.steps []
      (parameters.filterMap TypeDesc.sort?).reverse)
    (hparameters : ∀ t ∈ parameters, t.IsValue)
    (hcall : Invocation.ofMethod (.ofConstructor exception .isPublic parameters) = .ok call) :
    m.start.run? (compose [create exception, atom (.duplicate .single), arguments,
      atom (.invoke call), atom .throwTop]).steps = some (.thrown []) := by
  obtain ⟨hmethod, hmode⟩ := Invocation.ofMethod_eq_ok hcall
  have hregular : (Method.ofConstructor exception .isPublic parameters).Regular :=
    ⟨hparameters, True.intro⟩
  have hstatic : (Method.ofConstructor exception .isPublic parameters).isStatic = false := by
    change (Modifiers.isPublic.without .isStatic).has .isStatic = false
    decide
  have hinvoke : Moves m.initialLocals (atom (.invoke call)).steps
      ((parameters.filterMap TypeDesc.sort?).reverse ++ [.reference]) [] := by
    rw [← Method.receiver_of_instance hstatic]
    exact moves_invoke hmethod hmode hregular
  have hcall_below := hinvoke.below [.reference]
  rw [List.append_assoc] at hcall_below
  have hcopy : Moves m.initialLocals (atom (.duplicate .single)).steps [.reference]
      [.reference, .reference] :=
    Atom.moves_duplicate .reference
  have hcode := (moves_create hcreate).append (hcopy.append
    ((harguments.below [.reference, .reference]).append hcall_below))
  have hrun := hcode.run?_append (Atom.run?_throwTop [])
  simp only [List.append_assoc] at hrun
  simp only [steps_compose, List.flatMap_cons, List.flatMap_nil, List.append_nil]
  exact hrun

private theorem string_isValue : TypeDesc.string.IsValue := by
  refine ⟨rfl, ?_⟩
  change ';' ∉ "java/lang/String".toList
  decide

/-- A new exception is made from at most a text, and thrown. -/
theorem run?_throwing {m : Method} {exception : TypeDesc} {message : String}
    {body : Manipulation} (hbody : throwingBody m exception message = .ok body)
    (hvalid : body.isValid = true) : m.start.run? body.steps = some (.thrown []) := by
  unfold throwingBody at hbody
  split at hbody
  · cases hbody
  · by_cases hmessage : message = ""
    · simp only [hmessage, if_true] at hbody
      obtain ⟨call, hcall, hrest⟩ := exists_ok_of_bind hbody
      cases hrest
      rw [isValid_compose, List.forall_mem_cons] at hvalid
      exact run?_construct hvalid.1 (.nil _ []) (by simp) hcall
    · simp only [hmessage, if_false] at hbody
      obtain ⟨call, hcall, hrest⟩ := exists_ok_of_bind hbody
      cases hrest
      rw [isValid_compose, List.forall_mem_cons] at hvalid
      refine run?_construct hvalid.1 (moves_push _) ?_ hcall
      rw [List.forall_mem_singleton]
      exact string_isValue

/-- The method of the super class takes the arguments as they are. -/
theorem run?_superCall {m : Method} {body : Manipulation} (hm : m.Regular)
    (hbody : superBody m = .ok body) (hvalid : body.isValid = true) :
    m.start.run? body.steps = some (.returned m.returns.sort? []) := by
  unfold superBody at hbody
  split at hbody
  · cases hbody
  · next hstatic =>
    split at hbody
    · cases hbody
    · split at hbody
      · cases hbody
      · next superClass _ =>
        obtain ⟨invocation, hinvocation, hrest⟩ := exists_ok_of_bind hbody
        obtain ⟨call, hcall, hrest⟩ := exists_ok_of_bind hrest
        cases hrest
        rw [isValid_compose, List.forall_mem_cons] at hvalid
        obtain ⟨htarget, _⟩ := Invocation.ofMethod_eq_ok hinvocation
        obtain ⟨hmethod, htarget_static, hmode⟩ := Invocation.special_eq_ok hcall
        rw [htarget] at hmethod htarget_static
        have harguments := moves_loadArguments hvalid.1
        rw [Method.receiver_of_instance (Bool.eq_false_iff.mpr hstatic),
          ← Method.receiver_of_instance htarget_static] at harguments
        have hrun := run?_giveBack (harguments.append (moves_invoke hmethod hmode hm))
        simp only [List.append_assoc] at hrun
        simp only [steps_compose, List.flatMap_cons, List.flatMap_nil, List.append_nil]
        exact hrun

/-- The parts of a call of another method that was built. -/
theorem delegateBody_eq_ok {m target : Method} {dynamic : Bool} {body : Manipulation}
    (h : delegateBody m target dynamic = .ok body) :
    ∃ call receiver arguments result, m.parameters.length = target.parameters.length ∧
      Invocation.ofMethod target = .ok call ∧
      (target.isStatic = true ∧ receiver = [] ∨ target.isStatic = false ∧ m.isStatic = false ∧
        receiver = [loadThis, assign m.owner target.owner dynamic]) ∧
      passArguments m dynamic 0 m.parameters target.parameters = .ok arguments ∧
      returning m target.returns dynamic = .ok result ∧ body.isValid = true ∧
      body = compose (receiver ++ arguments ++ [atom (.invoke call), result]) := by
  unfold delegateBody at h
  split at h
  · cases h
  · next hlength =>
    obtain ⟨call, hcall, hrest⟩ := exists_ok_of_bind h
    -- What follows the choice of the receiver is the same for both kinds of targets.
    have hafter : ∀ receiver, (do
        let arguments ← passArguments m dynamic 0 m.parameters target.parameters
        let result ← returning m target.returns dynamic
        let body := compose (receiver ++ arguments ++ [atom (.invoke call), result])
        if body.isValid then return body else .error (notAssignable m m.owner target.owner)) =
          Except.ok body →
        ∃ arguments result, passArguments m dynamic 0 m.parameters target.parameters =
            .ok arguments ∧ returning m target.returns dynamic = .ok result ∧
          body.isValid = true ∧
          body = compose (receiver ++ arguments ++ [atom (.invoke call), result]) := by
      intro receiver hreceiver
      obtain ⟨arguments, harguments, hreceiver⟩ := exists_ok_of_bind hreceiver
      obtain ⟨result, hresult, hreceiver⟩ := exists_ok_of_bind hreceiver
      refine ⟨arguments, result, harguments, hresult, ?_⟩
      simp only at hreceiver
      split at hreceiver
      · next hvalid =>
        cases hreceiver
        exact ⟨hvalid, rfl⟩
      · cases hreceiver
    simp only at hrest
    split at hrest
    · next hstatic =>
      obtain ⟨arguments, result, hparts⟩ := hafter [] hrest
      exact ⟨call, [], arguments, result, Decidable.not_not.mp hlength, hcall,
        Or.inl ⟨hstatic, rfl⟩, hparts⟩
    · next hstatic =>
      split at hrest
      · cases hrest
      · next hinstance =>
        obtain ⟨arguments, result, hparts⟩ := hafter _ hrest
        exact ⟨call, _, arguments, result, Decidable.not_not.mp hlength, hcall,
          Or.inr ⟨Bool.eq_false_iff.mpr hstatic, Bool.eq_false_iff.mpr hinstance, rfl⟩, hparts⟩

/-- The target takes the receiver and the converted arguments, and its result is converted. -/
theorem run?_delegate {m target : Method} {dynamic : Bool} {body : Manipulation}
    (howner : m.owner.isReference = true) (htarget : target.owner.isReference = true)
    (hregular : target.Regular) (hbody : delegateBody m target dynamic = .ok body) :
    m.start.run? body.steps = some (.returned m.returns.sort? []) := by
  obtain ⟨call, receiver, arguments, result, hlength, hcall, hreceiver, harguments, hresult,
    hvalid, rfl⟩ := delegateBody_eq_ok hbody
  rw [isValid_compose, List.forall_mem_append, List.forall_mem_append] at hvalid
  obtain ⟨⟨hreceiver_valid, harguments_valid⟩, _⟩ := hvalid
  have hpushed : Moves m.initialLocals (receiver.flatMap steps) [] target.receiver := by
    rcases hreceiver with ⟨hstatic, rfl⟩ | ⟨hstatic, hinstance, rfl⟩
    · rw [Method.receiver, if_pos hstatic]
      exact .nil _ []
    · rw [List.forall_mem_cons, List.forall_mem_singleton] at hreceiver_valid
      have hassign : Moves m.initialLocals (assign m.owner target.owner dynamic).steps _ _ :=
        moves_assign hreceiver_valid.2
      rw [TypeDesc.sort?_of_reference (of_decide_eq_true howner),
        TypeDesc.sort?_of_reference (of_decide_eq_true htarget)] at hassign
      rw [Method.receiver_of_instance hstatic, List.flatMap_cons, List.flatMap_singleton]
      exact (moves_loadThis hinstance).append hassign
  have hpassed := moves_passArguments m.parameters target.parameters m.addressable_zero rfl hlength
    harguments harguments_valid
  obtain ⟨hmethod, hmode⟩ := Invocation.ofMethod_eq_ok hcall
  have hcode := (hpushed.append (hpassed.below target.receiver)).append
    (moves_invoke hmethod hmode hregular)
  have hrun := run?_returning hresult hcode
  rw [steps_compose, List.flatMap_append, List.flatMap_append, List.flatMap_cons,
    List.flatMap_singleton, ← List.append_assoc]
  exact hrun

/-- A getter returns what its field holds. -/
theorem run?_getter {m : Method} {f : Field} {body : Manipulation} (hf : f.type.IsValue)
    (hbody : getterBody m f = .ok body) :
    m.start.run? body.steps = some (.returned m.returns.sort? []) := by
  obtain ⟨receiver, hreceiver, hrest⟩ := exists_ok_of_bind hbody
  obtain ⟨result, hresult, hrest⟩ := exists_ok_of_bind hrest
  cases hrest
  have hread : Moves m.initialLocals (atom (.readField f)).steps f.receiver f.type.sort?.toList :=
    Atom.moves_exchange (a := .readField f) hf rfl
  rw [steps_compose, List.flatMap_cons, List.flatMap_cons, List.flatMap_singleton,
    ← List.append_assoc]
  exact run?_returning hresult ((moves_fieldReceiver hreceiver).append hread)

/-- A setter writes its argument to its field and returns the default value of its type. -/
theorem run?_setter {m : Method} {f : Field} {body : Manipulation} (hf : f.type.IsValue)
    (hbody : setterBody m f = .ok body) (hvalid : body.isValid = true) :
    m.start.run? body.steps = some (.returned m.returns.sort? []) := by
  unfold setterBody at hbody
  split at hbody
  · next parameter hparameters =>
    obtain ⟨receiver, hreceiver, hrest⟩ := exists_ok_of_bind hbody
    obtain ⟨value, hvalue, hrest⟩ := exists_ok_of_bind hrest
    obtain ⟨conversion, hconversion, hrest⟩ := exists_ok_of_bind hrest
    cases hrest
    simp only [isValid_compose, List.forall_mem_cons] at hvalid
    have hparameter : m.parameters[0]? = some parameter := by
      rw [hparameters]
      rfl
    obtain ⟨hload, _⟩ := m.addressable_zero.moves_loadParameter hparameter hvalue hvalid.2.1
    have hwrite : Moves m.initialLocals (atom (.writeField f)).steps
        (f.type.sort?.toList ++ f.receiver) [] :=
      Atom.moves_exchange (a := .writeField f) hf rfl
    have hcode := (moves_fieldReceiver hreceiver).append ((hload.below f.receiver).append
      (((moves_assigning hconversion).below f.receiver).append
        (hwrite.append (moves_pushDefault m.returns))))
    have hrun := run?_giveBack hcode
    simp only [List.append_assoc] at hrun
    simp only [steps_compose, List.flatMap_cons, List.flatMap_nil, List.append_nil]
    exact hrun
  · cases hbody

/-- All arguments are returned in one array. -/
theorem run?_argumentArray {m : Method} {body : Manipulation}
    (hbody : argumentArrayBody m = .ok body) (hvalid : body.isValid = true) :
    m.start.run? body.steps = some (.returned m.returns.sort? []) := by
  obtain ⟨component, hcomponent, hrest⟩ := exists_ok_of_bind hbody
  obtain ⟨values, hvalues, hrest⟩ := exists_ok_of_bind hrest
  obtain ⟨result, hresult, hrest⟩ := exists_ok_of_bind hrest
  cases hrest
  cases hcomponent
  rw [isValid_compose, List.forall_mem_cons, isValid, allValid_iff] at hvalid
  rw [steps_compose, List.flatMap_cons, List.flatMap_singleton]
  refine run?_returning hresult (moves_arrayLiteral ?_)
  exact moves_boxedArguments m.parameters m.addressable_zero rfl hvalues hvalid.1

/-- What the parts of a ready-made body have to be like: a fixed value pushes one value of its
type, another method and a field have descriptors that can be read, and the other method belongs to
a reference type. -/
def Suits (m : Method) : Implementation → Prop
  | fixed value t => ∃ c, t.sort? = some c ∧ Moves m.initialLocals value.steps [] [c]
  | delegate target _ => target.owner.isReference = true ∧ target.Regular
  | getter f => f.type.IsValue
  | setter f => f.type.IsValue
  | given _ => False
  | _ => True

/-- Every ready-made body that is built and valid runs to its end: each step finds the sorts it asks
for, only the last one leaves the method, and it leaves nothing behind. -/
theorem body_runs_to_ending {m : Method} {impl : Implementation} {body : Manipulation}
    (howner : m.owner.isReference = true) (hm : m.Regular) (himpl : impl.Suits m)
    (hbody : impl.body m = .ok body) (hvalid : body.isValid = true) :
    ∃ code effect, body.emit = (code, .ok effect) ∧
      m.start.run? code.toList = some (impl.ending m) := by
  refine ⟨body.steps.toArray, body.effect, emit_eq hvalid, ?_⟩
  change m.start.run? body.steps = _
  cases impl with
  | stub =>
    cases hbody
    exact run?_stub m
  | fixed value t =>
    obtain ⟨c, hc, hvalue⟩ := himpl
    refine run?_fixed ?_ hbody
    rw [hc]
    exact hvalue
  | throwing exception message => exact run?_throwing hbody hvalid
  | superCall => exact run?_superCall hm hbody hvalid
  | delegate target dynamic => exact run?_delegate howner himpl.1 himpl.2 hbody
  | getter f => exact run?_getter himpl hbody
  | setter f => exact run?_setter himpl hbody hvalid
  | argumentArray => exact run?_argumentArray hbody hvalid
  | given body => exact himpl.elim

/-- A method of a long and an int calls a method of a double and a long, and drops its result. -/
theorem body_runs_to_ending_delegate :
    let owner := TypeDesc.declared "A" .isPublic (some .object) []
    let m : Method := ⟨owner, "f", .isPublic, .void, [.primitive .long, .primitive .int]⟩
    let target : Method :=
      ⟨owner, "g", .isPublic, .primitive .long, [.primitive .double, .primitive .long]⟩
    ∃ body code effect, (delegate target false).body m = .ok body ∧
      body.emit = (code, .ok effect) ∧ m.start.run? code.toList = some (.returned none []) := by
  intro owner m target
  have hok : ((delegate target false).body m).isOk = true := by decide
  obtain ⟨body, hbody⟩ : ∃ body, (delegate target false).body m = .ok body := by
    cases hresult : (delegate target false).body m with
    | error e =>
      rw [hresult] at hok
      cases hok
    | ok body => exact ⟨body, rfl⟩
  have hvalid : body.isValid = true := by
    obtain ⟨_, _, _, _, _, _, _, _, _, hvalid, _⟩ := delegateBody_eq_ok hbody
    exact hvalid
  have hvalue : ∀ p, (TypeDesc.primitive p).IsValue := fun p => ⟨rfl, True.intro⟩
  have hm : m.Regular := by
    refine ⟨?_, True.intro⟩
    simp only [m, List.forall_mem_cons]
    exact ⟨hvalue .long, hvalue .int, by simp⟩
  have htarget : target.Regular := by
    refine ⟨?_, True.intro⟩
    simp only [target, List.forall_mem_cons]
    exact ⟨hvalue .double, hvalue .long, by simp⟩
  have hsuits : (delegate target false).Suits m := ⟨rfl, htarget⟩
  obtain ⟨code, effect, hemit, hrun⟩ := body_runs_to_ending rfl hm hsuits hbody hvalid
  exact ⟨body, code, effect, hbody, hemit, hrun⟩

end Implementation

end OperandStack
