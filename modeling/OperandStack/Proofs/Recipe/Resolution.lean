import Mathlib.Data.List.Forall2
import OperandStack.Proofs.Type.Grammar
import OperandStack.Recipe.Plan

/-!
# What the resolution of a recipe does

A resolution that succeeds has resolved every declaration of the recipe in turn. Here is
said, for each sort of declaration, what its success comes to: which names have been
looked up, which checks they have passed, and what has been made of them.
-/

namespace OperandStack

variable {table : TypeTable} {owner t : TypeDesc} {fields : List Field}

/-- All interfaces of a declaration have passed the check for interfaces. -/
theorem isInterface_of_resolveInterfaces {names : List String} {interfaces : List TypeDesc}
    (h : resolveInterfaces table names = .ok interfaces) :
    ∀ t ∈ interfaces, t.isInterface = true := by
  induction names generalizing interfaces with
  | nil =>
    cases h
    simp
  | cons name rest ih =>
    obtain ⟨t, _, h⟩ := exists_ok_of_bind h
    split at h
    · next ht =>
      obtain ⟨more, hmore, h⟩ := exists_ok_of_bind h
      cases h
      exact List.forall_mem_cons.mpr ⟨ht, ih hmore⟩
    · cases h

/-- A super class is the root class, or what its name stands for if that passes the check. -/
theorem resolveSuper_eq_ok {name : String} (h : resolveSuper table name = .ok t) :
    name = "" ∧ t = .object ∨
      table.describe name = .ok t ∧ t.isInterface = false ∧ t.isPrimitive = false ∧
        t.isArray = false := by
  unfold resolveSuper at h
  split at h
  · next hname =>
    cases h
    exact Or.inl ⟨hname, rfl⟩
  · obtain ⟨u, hdescribe, h⟩ := exists_ok_of_bind h
    split at h
    · cases h
    · next hcheck =>
      cases h
      simp only [Bool.or_eq_true, not_or, Bool.not_eq_true] at hcheck
      exact Or.inr ⟨hdescribe, hcheck.1.1, hcheck.1.2, hcheck.2⟩

/-- A declaration stands for an interface or for a class, by its kind. -/
theorem TypeDecl.resolve_eq_ok {d : TypeDecl} (h : d.resolve table = .ok t) :
    ∃ modifiers interfaces, resolveInterfaces table d.interfaces = .ok interfaces ∧
      (d.kind = "interface" ∧
          t = .ofInterface (TypeTable.internalName d.name) modifiers interfaces ∨
        ∃ superClass, d.kind = "class" ∧ resolveSuper table d.superClass = .ok superClass ∧
          t = .ofClass (TypeTable.internalName d.name) modifiers (some superClass) interfaces) := by
  unfold TypeDecl.resolve at h
  split at h
  · cases h
  · obtain ⟨modifiers, _, h⟩ := exists_ok_of_bind h
    obtain ⟨interfaces, hinterfaces, h⟩ := exists_ok_of_bind h
    refine ⟨modifiers, interfaces, hinterfaces, ?_⟩
    dsimp only at h
    split at h
    · next hkind =>
      cases h
      exact Or.inl ⟨hkind, rfl⟩
    · next hkind =>
      obtain ⟨superClass, hsuper, h⟩ := exists_ok_of_bind h
      cases h
      exact Or.inr ⟨superClass, hkind, hsuper, rfl⟩
    · cases h

/-- A declaration gives a reference type with its internal name. -/
theorem TypeDecl.isReference_of_resolve {d : TypeDecl} (h : d.resolve table = .ok t) :
    t.isReference = true ∧ t.name = TypeTable.internalName d.name := by
  obtain ⟨modifiers, interfaces, _, ⟨_, rfl⟩ | ⟨superClass, _, _, rfl⟩⟩ :=
    TypeDecl.resolve_eq_ok h <;> exact ⟨rfl, rfl⟩

/-- A field with the name, the type and the modifiers of its declaration. -/
structure FieldDecl.Planned (table : TypeTable) (owner : TypeDesc) (d : FieldDecl) (f : Field) :
    Prop where
  owner_eq : f.owner = owner
  name_eq : f.name = d.name
  type_eq : table.describe d.type = .ok f.type
  not_void : f.type.isVoid = false
  modifiers_eq : resolveModifiers d.modifiers = .ok f.modifiers

/-- A declaration is resolved to the field that it describes, and to no other. -/
theorem FieldDecl.resolve_eq_ok_iff {d : FieldDecl} {f : Field} :
    d.resolve table owner = .ok f ↔ d.Planned table owner f := by
  constructor
  · intro h
    obtain ⟨type, hdescribe, h⟩ := exists_ok_of_bind h
    split at h
    · cases h
    · next hvoid =>
      obtain ⟨modifiers, hmodifiers, h⟩ := exists_ok_of_bind h
      cases h
      exact ⟨rfl, rfl, hdescribe, Bool.eq_false_iff.mpr hvoid, hmodifiers⟩
  · rintro ⟨rfl, hname, htype, hvoid, hmodifiers⟩
    simp only [FieldDecl.resolve, htype, hvoid, hmodifiers, ← hname, bind, Except.bind]
    rfl

/-- Whether a type is the one of a parameter that is spelled so. -/
def IsParameter (table : TypeTable) (spelling : String) (t : TypeDesc) : Prop :=
  table.describe spelling = .ok t ∧ t.isVoid = false

/-- Parameters are resolved one by one, and none of them is `void`. -/
theorem resolveParameters_eq_ok_iff {method : String} {names : List String}
    {types : List TypeDesc} :
    resolveParameters table method names = .ok types ↔
      List.Forall₂ (IsParameter table) names types := by
  induction names generalizing types with
  | nil => simp [resolveParameters, eq_comm]
  | cons name rest ih =>
    constructor
    · intro h
      obtain ⟨t, hdescribe, h⟩ := exists_ok_of_bind h
      split at h
      · cases h
      · next hvoid =>
        obtain ⟨more, hmore, h⟩ := exists_ok_of_bind h
        cases h
        exact .cons ⟨hdescribe, Bool.eq_false_iff.mpr hvoid⟩ (ih.mp hmore)
    · rintro (_ | ⟨⟨hdescribe, hvoid⟩, hrest⟩)
      simp only [resolveParameters, hdescribe, hvoid, ih.mpr hrest, bind, Except.bind]
      rfl

/-- A method with the name, the types, the modifiers and the body of its declaration. A constructor
gives back nothing and is never static, whatever is declared. -/
structure MethodDecl.Planned (table : TypeTable) (owner : TypeDesc) (fields : List Field)
    (d : MethodDecl) (m : PlannedMethod) : Prop where
  owner_eq : m.method.owner = owner
  name_eq : m.method.name = d.name
  modifiers : ∃ flags, resolveModifiers d.modifiers = .ok flags ∧ m.method.modifiers =
    if d.name = Method.constructorName then flags.without .isStatic else flags
  returns : ∃ t, table.describe d.returns = .ok t ∧
    m.method.returns = if d.name = Method.constructorName then .void else t
  parameters : List.Forall₂ (IsParameter table) d.parameters m.method.parameters
  implementation_eq : d.implementation table fields = .ok m.implementation
  body_eq : m.body = d.body

/-- A declaration is resolved to the method that it describes, and to no other. -/
theorem MethodDecl.resolve_eq_ok_iff {d : MethodDecl} {m : PlannedMethod} :
    d.resolve table owner fields = .ok m ↔ d.Planned table owner fields m := by
  constructor
  · intro h
    obtain ⟨returns, hreturns, h⟩ := exists_ok_of_bind h
    obtain ⟨parameters, hparameters, h⟩ := exists_ok_of_bind h
    obtain ⟨flags, hflags, h⟩ := exists_ok_of_bind h
    obtain ⟨implementation, himplementation, h⟩ := exists_ok_of_bind h
    have htypes := resolveParameters_eq_ok_iff.mp hparameters
    cases h
    by_cases hname : d.name = Method.constructorName
    · refine ⟨?_, ?_, ⟨flags, hflags, ?_⟩, ⟨returns, hreturns, ?_⟩, ?_, himplementation, rfl⟩ <;>
        simp only [if_pos hname, Method.ofConstructor]
      · exact hname.symm
      · exact htypes
    · refine ⟨?_, ?_, ⟨flags, hflags, ?_⟩, ⟨returns, hreturns, ?_⟩, ?_, himplementation, rfl⟩ <;>
        simp only [if_neg hname]
      exact htypes
  · rintro ⟨howner, hname, ⟨flags, hflags, hmodifiers⟩, ⟨returns, hdescribe, hreturns⟩, htypes,
      himplementation, hbody⟩
    obtain ⟨⟨methodOwner, name, modifiers, result, parameters⟩, implementation, body⟩ := m
    dsimp only at howner hname hmodifiers hreturns htypes himplementation hbody
    have hparameters : resolveParameters table d.name d.parameters = .ok parameters :=
      resolveParameters_eq_ok_iff.mpr htypes
    subst howner hname hbody hmodifiers hreturns
    simp only [MethodDecl.resolve, hdescribe, hparameters, hflags, himplementation, bind,
      Except.bind]
    by_cases hname : d.name = Method.constructorName
    · simp only [if_pos hname, Method.ofConstructor]
      rw [hname]
      rfl
    · simp only [if_neg hname]
      rfl

/-- A method calls another one exactly if its body asks for that, and then its target. -/
theorem MethodDecl.implementation_eq_delegate_iff {d : MethodDecl} {implementation : Implementation}
    (h : d.implementation table fields = .ok implementation) {target : Method} {dynamic : Bool} :
    implementation = .delegate target dynamic ↔
      d.body = "delegate" ∧ resolveTarget table d.target d.targetModifiers = .ok target ∧
        d.dynamic = dynamic := by
  unfold MethodDecl.implementation at h
  split at h
  case h_1 hbody | h_2 hbody | h_3 hbody =>
    cases h
    simp [hbody]
  case h_4 hbody | h_5 hbody | h_6 hbody | h_8 hbody =>
    obtain ⟨found, _, h⟩ := exists_ok_of_bind h
    cases h
    simp [hbody]
  case h_7 hbody =>
    obtain ⟨found, hfound, h⟩ := exists_ok_of_bind h
    cases h
    simp [hbody, hfound]
  case h_9 => cases h

/-- A delegation that is resolved has a target. -/
theorem MethodDecl.exists_target_of_delegate {d : MethodDecl} {implementation : Implementation}
    (h : d.implementation table fields = .ok implementation) (hbody : d.body = "delegate") :
    ∃ target, resolveTarget table d.target d.targetModifiers = .ok target := by
  rw [MethodDecl.implementation, hbody] at h
  obtain ⟨target, htarget, _⟩ := exists_ok_of_bind h
  exact ⟨target, htarget⟩

/-- Whether a target has a spelling in front of the last point before its descriptor. -/
def HasOwner (target owner : String) : Prop :=
  ∃ name descriptor, target = owner ++ "." ++ name ++ "(" ++ descriptor ∧
    '(' ∉ owner.toList ∧ '(' ∉ name.toList ∧ '.' ∉ name.toList

/-- The split of a target at its first parenthesis and at the last point before that. -/
theorem HasOwner.toList_eq {target ownerName : String} (h : HasOwner target ownerName) :
    (((target.toList.takeWhile (· ≠ '(')).reverse.dropWhile (· ≠ '.')).drop 1).reverse =
      ownerName.toList := by
  obtain ⟨name, descriptor, rfl, howner, hname, hpoint⟩ := h
  have hpath : ∀ c ∈ ownerName.toList ++ '.' :: name.toList, (c ≠ '(' : Bool) = true := by
    intro c hc
    rcases List.mem_append.mp hc with hc | hc
    · exact decide_eq_true (ne_of_mem_of_not_mem hc howner)
    · rcases List.mem_cons.mp hc with rfl | hc
      · decide
      · exact decide_eq_true (ne_of_mem_of_not_mem hc hname)
  have hreversed : ∀ c ∈ name.toList.reverse, (c ≠ '.' : Bool) = true := fun c hc =>
    decide_eq_true (ne_of_mem_of_not_mem (List.mem_reverse.mp hc) hpoint)
  have htarget : (ownerName ++ "." ++ name ++ "(" ++ descriptor).toList =
      (ownerName.toList ++ '.' :: name.toList) ++ '(' :: descriptor.toList := by simp
  rw [htarget, List.takeWhile_append_of_pos hpath, List.takeWhile_cons_of_neg (by decide),
    List.append_nil, List.reverse_append, List.reverse_cons, List.append_assoc,
    List.dropWhile_append_of_pos hreversed]
  simp

/-- A target has one owner at most. -/
theorem HasOwner.unique {target s u : String} (hs : HasOwner target s) (hu : HasOwner target u) :
    s = u :=
  String.toList_inj.mp (hs.toList_eq.symm.trans hu.toList_eq)

/-- The parts of a target as they are read: up to the first parenthesis, and there up to the last
point. -/
theorem hasOwner_of_split {target : String} {opening point : Char}
    {descriptor reversedOwner : List Char}
    (hdescriptor : target.toList.dropWhile (· ≠ '(') = opening :: descriptor)
    (howner : (target.toList.takeWhile (· ≠ '(')).reverse.dropWhile (· ≠ '.') =
      point :: reversedOwner) :
    HasOwner target (String.ofList reversedOwner.reverse) := by
  let path := target.toList.takeWhile (· ≠ '(')
  let reversedName := path.reverse.takeWhile (· ≠ '.')
  have htarget : target.toList = path ++ '(' :: descriptor :=
    TypeTable.eq_append_of_dropWhile hdescriptor
  have hpath : path = reversedOwner.reverse ++ '.' :: reversedName.reverse := by
    have hreverse := congrArg List.reverse (TypeTable.eq_append_of_dropWhile howner)
    simpa [path, reversedName] using hreverse
  have hopen : '(' ∉ reversedOwner.reverse ++ '.' :: reversedName.reverse :=
    hpath ▸ TypeTable.notMem_takeWhile_ne '(' target.toList
  rw [List.mem_append, List.mem_cons, not_or, not_or] at hopen
  have hpoint : '.' ∉ reversedName := TypeTable.notMem_takeWhile_ne '.' path.reverse
  refine ⟨String.ofList reversedName.reverse, String.ofList descriptor, ?_, ?_, ?_, ?_⟩
  · rw [← String.toList_inj, htarget, hpath]
    simp
  · simpa using hopen.1
  · simpa using hopen.2.2
  · simpa using hpoint

/-- The method of a target belongs to what the owner of the target stands for. -/
theorem hasOwner_of_resolveTarget {target : String} {modifiers : List String} {m : Method}
    (h : resolveTarget table target modifiers = .ok m) :
    ∃ s, HasOwner target s ∧ table.describe s = .ok m.owner := by
  unfold resolveTarget at h
  dsimp only at h
  split at h
  · cases h
  · next hdescriptor =>
    split at h
    · cases h
    · next hparts =>
      obtain ⟨owner, howner, h⟩ := exists_ok_of_bind h
      obtain ⟨signature, _, h⟩ := exists_ok_of_bind h
      obtain ⟨flags, _, h⟩ := exists_ok_of_bind h
      cases h
      simp only [Bool.or_eq_true, not_or, List.isEmpty_iff] at hdescriptor hparts
      obtain ⟨_, descriptor, hdescriptor⟩ := List.exists_cons_of_ne_nil hdescriptor
      have hafter : (target.toList.takeWhile (· ≠ '(')).reverse.dropWhile (· ≠ '.') ≠ [] := by
        intro hnil
        exact hparts.2 (by rw [hnil]; rfl)
      obtain ⟨_, reversedOwner, hafter⟩ := List.exists_cons_of_ne_nil hafter
      rw [hafter] at howner
      exact ⟨_, hasOwner_of_split hdescriptor hafter, howner⟩

/-- The types of declarations that are resolved and defined in order, each in the table that holds
those before it, and the table after the last one. -/
inductive DefinedInOrder : TypeTable → List TypeDecl → List TypeDesc → TypeTable → Prop where
  | nil (table : TypeTable) : DefinedInOrder table [] [] table
  | cons {table after : TypeTable} {d : TypeDecl} {t : TypeDesc} {decls : List TypeDecl}
      {types : List TypeDesc} (head : d.resolve table = .ok t)
      (tail : DefinedInOrder (table.define t) decls types after) :
      DefinedInOrder table (d :: decls) (t :: types) after

namespace DefinedInOrder

variable {after : TypeTable} {decls : List TypeDecl} {types : List TypeDesc}

/-- The table holds the defined types, the last one first, before all it has held. -/
theorem types_eq (h : DefinedInOrder table decls types after) :
    after.types = types.reverse ++ table.types := by
  induction h with
  | nil => rfl
  | cons _ _ ih => simp [ih, TypeTable.define]

/-- Every defined type has the name of its declaration. -/
theorem names (h : DefinedInOrder table decls types after) :
    List.Forall₂ (fun d t => t.name = TypeTable.internalName d.name) decls types := by
  induction h with
  | nil => exact .nil
  | cons head _ ih => exact .cons (TypeDecl.isReference_of_resolve head).2 ih

/-- One more type can be defined behind the others. -/
theorem concat (h : DefinedInOrder table decls types after) {d : TypeDecl}
    (hd : d.resolve after = .ok t) :
    DefinedInOrder table (decls ++ [d]) (types ++ [t]) (after.define t) := by
  induction h with
  | nil => exact .cons hd (.nil _)
  | cons head _ ih => exact .cons head (ih hd)

end DefinedInOrder

namespace Recipe

/-- A run that defines all types has defined them in order. -/
theorem definedInOrder_of_defineTypes {i : Nat} {decls : List TypeDecl} {after : TypeTable}
    (h : defineTypes i table decls = (.ok (), after)) :
    ∃ types, DefinedInOrder table decls types after := by
  induction decls generalizing i table with
  | nil =>
    cases h
    exact ⟨[], .nil _⟩
  | cons d rest ih =>
    rw [defineTypes] at h
    split at h
    · cases h
    · next t ht =>
      obtain ⟨types, htypes⟩ := ih h
      exact ⟨t :: types, .cons ht htypes⟩

/-- Fields that are all resolved are resolved one by one. -/
theorem forall₂_of_resolveFields {i : Nat} {decls : List FieldDecl} {resolved : List Field}
    (h : resolveFields table owner i decls = .ok resolved) :
    List.Forall₂ (fun d f => d.resolve table owner = .ok f) decls resolved := by
  induction decls generalizing i resolved with
  | nil =>
    cases h
    exact .nil
  | cons d rest ih =>
    rw [resolveFields] at h
    split at h
    · cases h
    · next f hf =>
      obtain ⟨more, hmore, h⟩ := exists_ok_of_bind h
      cases h
      exact .cons hf (ih hmore)

/-- Methods that are all resolved are resolved one by one. -/
theorem forall₂_of_resolveMethods {i : Nat} {decls : List MethodDecl}
    {resolved : List PlannedMethod} (h : resolveMethods table owner fields i decls = .ok resolved) :
    List.Forall₂ (fun d m => d.resolve table owner fields = .ok m) decls resolved := by
  induction decls generalizing i resolved with
  | nil =>
    cases h
    exact .nil
  | cons d rest ih =>
    rw [resolveMethods] at h
    split at h
    · cases h
    · next m hm =>
      obtain ⟨more, hmore, h⟩ := exists_ok_of_bind h
      cases h
      exact .cons hm (ih hmore)

/-- A recipe is resolved item by item: its types, the type it generates, then the fields and the
methods of that type. -/
theorem resolve_eq_ok {r : Recipe} {plan : Plan} {after : TypeTable}
    (h : r.resolve table = (.ok plan, after)) :
    ∃ types, DefinedInOrder table (r.types ++ [r.type]) (types ++ [plan.type]) after ∧
      List.Forall₂ (fun d f => d.resolve after plan.type = .ok f) r.fields plan.fields ∧
      List.Forall₂ (fun d m => d.resolve after plan.type plan.fields = .ok m)
        r.methods plan.methods := by
  unfold resolve at h
  split at h
  · cases h
  · next before hbefore =>
    obtain ⟨types, htypes⟩ := definedInOrder_of_defineTypes hbefore
    split at h
    · cases h
    · next type htype =>
      obtain ⟨hplan, rfl⟩ := Prod.mk.inj h
      obtain ⟨fields, hfields, hplan⟩ := exists_ok_of_bind hplan
      obtain ⟨methods, hmethods, hplan⟩ := exists_ok_of_bind hplan
      cases hplan
      exact ⟨types, htypes.concat htype, forall₂_of_resolveFields hfields,
        forall₂_of_resolveMethods hmethods⟩

end Recipe

end OperandStack
