import OperandStack.Proofs.Recipe.Resolution
import OperandStack.Proofs.Type.Spelling

/-!
# The kinds of types in a plan

Names of types stand at several places of a recipe, and each place has a check of its own.
Interfaces, field types and parameter types of a plan are always of the right kind. Super
classes are so unless one is spelled as `void`, which their check lets through, and owners of
delegation targets are so unless one is spelled as `void` or as a primitive type, for there is no
check of owners.
-/

namespace OperandStack

open TypeTable

variable {table after : TypeTable} {t : TypeDesc}

/-- Whether a type extends a class. -/
def TypeDesc.ExtendsClass (t : TypeDesc) : Prop :=
  ∃ s, t.superClass? = some s ∧ s.isReference = true ∧ s.isArray = false ∧ s.isInterface = false

/-- The tables that recipes lead to, whether or not their plans are found. -/
inductive TypeTable.Reached : TypeTable → Prop where
  | builtin : Reached .builtin
  | resolve {table : TypeTable} (h : Reached table) (r : Recipe) : Reached (r.resolve table).2

/-- Defining types keeps the table one of reference types, also where one of them fails. -/
theorem Recipe.allReferences_defineTypes (table : ReferenceTable) (i : Nat)
    (decls : List TypeDecl) : (defineTypes i table.toTypeTable decls).2.AllReferences := by
  induction decls generalizing i table with
  | nil => exact table.allReferences
  | cons d rest ih =>
    rw [defineTypes]
    split
    · exact table.allReferences
    · next t ht => exact ih (table.define t (TypeDecl.isReference_of_resolve ht).1) (i + 1)

/-- A recipe defines reference types only. -/
theorem Recipe.allReferences_resolve (table : ReferenceTable) (r : Recipe) :
    (r.resolve table.toTypeTable).2.AllReferences := by
  have hbefore := allReferences_defineTypes table 0 r.types
  unfold resolve
  split
  · next heq => simpa only [heq] using hbefore
  · next defined heq =>
    rw [heq] at hbefore
    let known : ReferenceTable := ⟨defined, hbefore⟩
    split
    · exact hbefore
    · next t ht => exact (known.define t (TypeDecl.isReference_of_resolve ht).1).allReferences

/-- Whatever recipes lead to is a table of reference types. -/
def TypeTable.Reached.toReferences (h : table.Reached) : ReferenceTable where
  toTypeTable := table
  allReferences := by
    induction h with
    | builtin => exact ReferenceTable.builtin.allReferences
    | resolve _ r ih => exact r.allReferences_resolve ⟨_, ih⟩

/-- A super class that has passed its check is a class, or is spelled as `void`. -/
theorem isReference_of_resolveSuper (table : ReferenceTable) {name : String}
    (h : resolveSuper table.toTypeTable name = .ok t) :
    t.isArray = false ∧ t.isInterface = false ∧
      (t.isReference = true ↔ name ∉ voidSpellings) := by
  rcases resolveSuper_eq_ok h with ⟨rfl, rfl⟩ | ⟨hdescribe, hinterface, hprimitive, harray⟩
  · exact ⟨rfl, rfl, iff_of_true rfl (by decide)⟩
  · have hspelling : name ∉ primitiveSpellings := by
      intro hname
      obtain ⟨p, hp⟩ := describe_primitive table.toTypeTable hname
      obtain rfl : .primitive p = t := Except.ok.inj (hp.symm.trans hdescribe)
      cases hprimitive
    refine ⟨harray, hinterface, ?_⟩
    rw [table.describe_isReference_iff hdescribe, List.mem_append, or_iff_left hspelling]

/-- A declared type implements interfaces, and extends a class unless its super class is spelled as
`void`. -/
theorem TypeDecl.kinds_of_resolve (table : ReferenceTable) {d : TypeDecl}
    (h : d.resolve table.toTypeTable = .ok t) :
    (∀ i ∈ t.interfaces, i.isInterface = true) ∧
      (t.ExtendsClass ↔ (d.kind = "class" → d.superClass ∉ voidSpellings)) := by
  obtain ⟨modifiers, interfaces, hinterfaces, ⟨hkind, rfl⟩ | ⟨s, hkind, hsuper, rfl⟩⟩ :=
    TypeDecl.resolve_eq_ok h
  · refine ⟨isInterface_of_resolveInterfaces hinterfaces, iff_of_true ?_ ?_⟩
    · exact ⟨.object, rfl, rfl, rfl, rfl⟩
    · simp [hkind]
  · obtain ⟨harray, hinterface, hreference⟩ := isReference_of_resolveSuper table hsuper
    refine ⟨isInterface_of_resolveInterfaces hinterfaces, ?_⟩
    constructor
    · rintro ⟨u, hu, href, _⟩ _
      obtain rfl : s = u := Option.some.inj hu
      exact hreference.mp href
    · intro hname
      exact ⟨s, rfl, hreference.mpr (hname hkind), harray, hinterface⟩

/-- All types that are defined in order are of the kinds their declarations lead to. -/
theorem DefinedInOrder.kinds {decls : List TypeDecl} {types : List TypeDesc}
    {table : TypeTable} (h : DefinedInOrder table decls types after) (known : ReferenceTable)
    (hknown : known.toTypeTable = table) :
    List.Forall₂ (fun d t => (∀ i ∈ t.interfaces, i.isInterface = true) ∧
      (t.ExtendsClass ↔ (d.kind = "class" → d.superClass ∉ voidSpellings))) decls types := by
  induction h generalizing known with
  | nil => exact .nil
  | cons head _ ih =>
    subst hknown
    have href := (TypeDecl.isReference_of_resolve head).1
    exact .cons (TypeDecl.kinds_of_resolve known head) (ih (known.define _ href) rfl)

/-- The owner of a delegation target is a reference type unless it is spelled as another type. -/
theorem isReference_owner_iff (table : ReferenceTable) {target : String}
    {modifiers : List String} {m : Method}
    (h : resolveTarget table.toTypeTable target modifiers = .ok m) :
    m.owner.isReference = true ↔
      ∀ s ∈ voidSpellings ++ primitiveSpellings, ¬ HasOwner target s := by
  obtain ⟨owner, howner, hdescribe⟩ := hasOwner_of_resolveTarget h
  rw [table.describe_isReference_iff hdescribe]
  constructor
  · intro hnotMem s hs hasOwner
    exact hnotMem (howner.unique hasOwner ▸ hs)
  · intro hnone hmem
    exact hnone owner hmem howner

/-- What holds of each item exactly if it holds of its counterpart holds of all exactly so. -/
theorem forall_mem_iff_of_forall₂ {α β : Type} {R : α → β → Prop} {P : α → Prop} {Q : β → Prop}
    {xs : List α} {ys : List β} (h : List.Forall₂ R xs ys) (hR : ∀ x y, R x y → (Q y ↔ P x)) :
    (∀ y ∈ ys, Q y) ↔ ∀ x ∈ xs, P x := by
  induction h with
  | nil => simp
  | cons head _ ih => simp [ih, hR _ _ head]

/-- What a counterpart always has, all of them have. -/
theorem forall_mem_of_forall₂ {α β : Type} {R : α → β → Prop} {Q : β → Prop}
    {xs : List α} {ys : List β} (h : List.Forall₂ R xs ys) (hR : ∀ x y, R x y → Q y) :
    ∀ y ∈ ys, Q y :=
  (forall_mem_iff_of_forall₂ h fun x y hxy => iff_true_intro (hR x y hxy)).mpr fun _ _ => trivial

/-- In every plan the interfaces are interfaces, and no field and no parameter is `void`. All types
of the recipe extend classes exactly if none has a super class that is spelled as `void`, and all
delegation targets belong to reference types exactly if no owner is spelled as another type. -/
theorem Recipe.resolve_kinds_exact {table after : TypeTable} {r : Recipe} {plan : Plan}
    (htable : table.Reached) (h : r.resolve table = (.ok plan, after)) :
    ∃ types, after.types = (types ++ [plan.type]).reverse ++ table.types ∧
      List.Forall₂ (fun d t => t.name = internalName d.name)
        (r.types ++ [r.type]) (types ++ [plan.type]) ∧
      (∀ t ∈ types ++ [plan.type], ∀ i ∈ t.interfaces, i.isInterface = true) ∧
      (∀ f ∈ plan.fields, f.type.isVoid = false) ∧
      (∀ m ∈ plan.methods, ∀ p ∈ m.method.parameters, p.isVoid = false) ∧
      ((∀ t ∈ types ++ [plan.type], t.ExtendsClass) ↔
        ∀ d ∈ r.types ++ [r.type], d.kind = "class" → d.superClass ∉ voidSpellings) ∧
      ((∀ m ∈ plan.methods, ∀ target dynamic, m.implementation = .delegate target dynamic →
          target.owner.isReference = true) ↔
        ∀ d ∈ r.methods, d.body = "delegate" →
          ∀ s ∈ voidSpellings ++ primitiveSpellings, ¬ HasOwner d.target s) := by
  obtain ⟨types, htypes, hfields, hmethods⟩ := Recipe.resolve_eq_ok h
  have hkinds := htypes.kinds htable.toReferences rfl
  have hafter : after.Reached := by
    have hresolve := htable.resolve r
    rwa [h] at hresolve
  let defined := hafter.toReferences
  refine ⟨types, htypes.types_eq, htypes.names,
    forall_mem_of_forall₂ hkinds fun _ _ hd => hd.1,
    forall_mem_of_forall₂ hfields fun _ _ hf => (FieldDecl.resolve_eq_ok_iff.mp hf).not_void,
    forall_mem_of_forall₂ hmethods fun _ _ hm =>
      forall_mem_of_forall₂ (MethodDecl.resolve_eq_ok_iff.mp hm).parameters fun _ _ hp => hp.2,
    forall_mem_iff_of_forall₂ hkinds fun _ _ hd => hd.2,
    forall_mem_iff_of_forall₂ hmethods fun d m hm => ?_⟩
  have himplementation := (MethodDecl.resolve_eq_ok_iff.mp hm).implementation_eq
  constructor
  · intro howners hbody
    obtain ⟨target, htarget⟩ := MethodDecl.exists_target_of_delegate himplementation hbody
    have hdelegate : m.implementation = .delegate target d.dynamic :=
      (MethodDecl.implementation_eq_delegate_iff himplementation).mpr ⟨hbody, htarget, rfl⟩
    exact (isReference_owner_iff defined htarget).mp (howners target d.dynamic hdelegate)
  · intro hspellings target dynamic hdelegate
    obtain ⟨hbody, htarget, _⟩ :=
      (MethodDecl.implementation_eq_delegate_iff himplementation).mp hdelegate
    exact (isReference_owner_iff defined htarget).mpr (hspellings hbody)

/-- A class without a super class of its own extends the root class, and its method may call one
whose owner is a primitive type. -/
theorem Recipe.resolve_kinds_exact_primitiveOwner :
    let next : MethodDecl := {
      name := "next", returns := "int", modifiers := ["static"], body := "delegate"
      target := "int.next()I", targetModifiers := ["static"] }
    let r : Recipe := { type := { name := "a.B", kind := "class" }, methods := [next] }
    ∃ plan after, Reached .builtin ∧ r.resolve .builtin = (.ok plan, after) ∧
      plan.type.ExtendsClass ∧
      ¬ ∀ m ∈ plan.methods, ∀ target dynamic, m.implementation = .delegate target dynamic →
        target.owner.isReference = true := by
  intro next r
  let int := TypeDesc.primitive .int
  let b : TypeDesc := .ofClass (internalName "a.B") .empty (some .object) []
  let target : Method := ⟨int, "next", .isStatic, int, []⟩
  let plan : Plan :=
    ⟨b, [], [⟨⟨b, "next", .isStatic, int, []⟩, .delegate target false, "delegate"⟩]⟩
  have htarget : resolveTarget (builtin.define b) "int.next()I" ["static"] = .ok target := by
    simp [resolveTarget, parseMethod, parseParameters]
    rfl
  have hmethods : resolveMethods (builtin.define b) b [] 0 r.methods = .ok plan.methods := by
    simp only [r, next, resolveMethods, MethodDecl.resolve, MethodDecl.implementation, htarget]
    rfl
  have hresolve : r.resolve .builtin = (.ok plan, builtin.define b) := by
    change ((resolveMethods (builtin.define b) b [] 0 r.methods >>= fun methods =>
      .ok (Plan.mk b [] methods)), builtin.define b) = _
    rw [hmethods]
    rfl
  obtain ⟨types, _, _, _, _, _, hsupers, howners⟩ := resolve_kinds_exact .builtin hresolve
  refine ⟨plan, _, .builtin, hresolve, ?_, ?_⟩
  · refine hsupers.mpr ?_ plan.type (by simp)
    intro d hd _
    obtain rfl : d = r.type := by simpa [r] using hd
    decide
  · intro hall
    refine howners.mp hall next (by simp [r]) rfl "int" (by decide) ?_
    exact ⟨"next", ")I", by decide, by decide, by decide, by decide⟩

/-- The check of super classes lets `void` through. -/
theorem Recipe.resolve_void_super :
    ∃ plan after, ({ type := { name := "a.B", kind := "class", superClass := "void" } } :
        Recipe).resolve .builtin = (.ok plan, after) ∧ ¬ plan.type.ExtendsClass := by
  refine ⟨⟨.ofClass (internalName "a.B") .empty (some .void) [], [], []⟩, _, rfl, ?_⟩
  rintro ⟨s, hs, href, _⟩
  cases hs
  cases href

end OperandStack
