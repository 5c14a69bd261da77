import OperandStack.Proofs.Recipe.Reports
import OperandStack.Proofs.Recipe.Resolution

/-!
# Where the resolution of a recipe fails

The items of a recipe are resolved one after another: the types it refers to, the type it
generates, the fields, the methods. The resolution is a single walk over them. It stops at
the first item that fails, and the error is that item's own error with the place of the
item put in front of its path. The table then holds the types of the items before. Where
no item fails, the plan carries what the items declare.
-/

namespace OperandStack

/-- A computation in sequence fails in its first part or, after that, in its second. -/
theorem error_cases_of_bind {ε α β : Type} {x : Except ε α} {f : α → Except ε β} {e : ε}
    (h : x >>= f = .error e) : x = .error e ∨ ∃ a, x = .ok a ∧ f a = .error e := by
  cases x with
  | error e' =>
    cases h
    exact Or.inl rfl
  | ok a => exact Or.inr ⟨a, rfl, h⟩

/-- A walk that fails does so at some element: it has come through all elements before. -/
theorem exists_of_foldlM_eq_error {α β ε : Type} {f : β → α → Except ε β} {xs : List α} {b : β}
    {e : ε} (h : xs.foldlM f b = .error e) :
    ∃ before x rest c, xs = before ++ x :: rest ∧ before.foldlM f b = .ok c ∧ f c x = .error e := by
  induction xs generalizing b with
  | nil => cases h
  | cons x rest ih =>
    rw [List.foldlM_cons] at h
    obtain hx | ⟨c, hx, h⟩ := error_cases_of_bind h
    · exact ⟨[], x, rest, b, rfl, rfl, hx⟩
    · obtain ⟨before, y, after, d, rfl, hbefore, hy⟩ := ih h
      refine ⟨x :: before, y, after, d, rfl, ?_, hy⟩
      rw [List.foldlM_cons, hx]
      exact hbefore

/-- The table after types have been defined in order, told without the declarations. -/
theorem DefinedInOrder.eq_foldl_define {table after : TypeTable} {decls : List TypeDecl}
    {types : List TypeDesc} (h : DefinedInOrder table decls types after) :
    after = types.foldl TypeTable.define table := by
  induction h with
  | nil => rfl
  | cons _ _ ih => exact ih

namespace Recipe

/-- A declaration of a recipe with its place there. -/
inductive Item where
  /-- A type that the recipe refers to. -/
  | referred (i : Nat) (d : TypeDecl)
  /-- The type that the recipe generates. -/
  | generated (d : TypeDecl)
  | field (i : Nat) (d : FieldDecl)
  | method (i : Nat) (d : MethodDecl)

/-- The place of an item as errors name it. -/
def Item.label : Item → List String
  | referred i _ => ["types", toString i]
  | generated _ => ["type"]
  | field i _ => ["fields", toString i]
  | method i _ => ["methods", toString i]

/-- The declaration of an item that declares a type. -/
def Item.typeDecl? : Item → Option TypeDecl
  | referred _ d => some d
  | generated d => some d
  | _ => none

/-- Types from a place on. -/
def referredFrom (i : Nat) (decls : List TypeDecl) : List Item :=
  (decls.zipIdx i).map fun (d, i) => .referred i d

/-- Fields from a place on. -/
def fieldsFrom (i : Nat) (decls : List FieldDecl) : List Item :=
  (decls.zipIdx i).map fun (d, i) => .field i d

/-- Methods from a place on. -/
def methodsFrom (i : Nat) (decls : List MethodDecl) : List Item :=
  (decls.zipIdx i).map fun (d, i) => .method i d

/-- The items of a recipe in the order in which they are resolved. -/
def items (r : Recipe) : List Item :=
  referredFrom 0 r.types ++ .generated r.type :: (fieldsFrom 0 r.fields ++ methodsFrom 0 r.methods)

/-- What items have been resolved to, each sort in order. -/
structure Progress where
  types : List TypeDesc := []
  fields : List Field := []
  methods : List PlannedMethod := []

namespace Progress

/-- The table with the types so far defined in it. -/
def table (start : TypeTable) (p : Progress) : TypeTable := p.types.foldl TypeTable.define start

/-- The type that members belong to: the one defined last. -/
def owner (p : Progress) : TypeDesc := p.types.getLastD .void

/-- The next type is defined on top of those before it. -/
theorem table_concat (start : TypeTable) (p : Progress) (t : TypeDesc) :
    { p with types := p.types ++ [t] }.table start = (p.table start).define t := by
  simp [table]

/-- Members belong to the type defined last. -/
theorem owner_concat (p : Progress) (t : TypeDesc) :
    { p with types := p.types ++ [t] }.owner = t := by
  simp [owner]

end Progress

/-- Resolves an item after those before it. -/
def Item.resolve (start : TypeTable) (p : Progress) : Item → Except Error Progress
  | referred _ d => do return { p with types := p.types ++ [← d.resolve (p.table start)] }
  | generated d => do return { p with types := p.types ++ [← d.resolve (p.table start)] }
  | field _ d => do return { p with fields := p.fields ++ [← d.resolve (p.table start) p.owner] }
  | method _ d => do
    return { p with methods := p.methods ++ [← d.resolve (p.table start) p.owner p.fields] }

/-- An item that cannot be resolved is told in a report. -/
theorem Item.reports_resolve (start : TypeTable) (p : Progress) (item : Item) :
    Reports (item.resolve start p) := by
  cases item with
  | referred i d => exact (d.reports_resolve _).bind fun _ => .ok _
  | generated d => exact (d.reports_resolve _).bind fun _ => .ok _
  | field i d => exact (d.reports_resolve _ _).bind fun _ => .ok _
  | method i d => exact (d.reports_resolve _ _ _).bind fun _ => .ok _

/-- One item of the walk. A failure is told with its place, and with the table as it is then. -/
def Item.step (start : TypeTable) (p : Progress) (item : Item) :
    Except (Error × TypeTable) Progress :=
  (item.resolve start p).mapError fun e => (e.within item.label, p.table start)

/-- The walk over items. -/
def walk (start : TypeTable) (p : Progress) (items : List Item) :
    Except (Error × TypeTable) Progress :=
  items.foldlM (Item.step start) p

variable {start : TypeTable} {p q : Progress}

/-- An item that fails ends the walk with its error at its place, and with the table as it is then.
-/
theorem Item.step_of_error {item : Item} {e : Error} (h : item.resolve start p = .error e) :
    item.step start p = .error (e.within item.label, p.table start) := by
  rw [Item.step, h]
  rfl

theorem Item.step_of_ok {item : Item} (h : item.resolve start p = .ok q) :
    item.step start p = .ok q := by
  rw [Item.step, h]
  rfl

/-- Items in turn go on from the progress of those before. -/
theorem walk_append (front items : List Item) :
    walk start p (front ++ items) = walk start p front >>= (walk start · items) := by
  simp [walk]

theorem walk_cons (item : Item) (items : List Item) :
    walk start p (item :: items) = item.step start p >>= (walk start · items) := by
  simp [walk]

/-- A walk over the types ends as their definition does, and adds nothing but types. -/
theorem walk_referred (p : Progress) (i : Nat) (decls : List TypeDecl) :
    (∃ types, walk start p (referredFrom i decls) = .ok { p with types := p.types ++ types } ∧
        defineTypes i (p.table start) decls =
          (.ok (), { p with types := p.types ++ types }.table start)) ∨
      ∃ e table, walk start p (referredFrom i decls) = .error (e, table) ∧
        defineTypes i (p.table start) decls = (.error e, table) := by
  induction decls generalizing i p with
  | nil =>
    refine Or.inl ⟨[], ?_, ?_⟩ <;> rw [List.append_nil] <;> rfl
  | cons d rest ih =>
    have hitems : referredFrom i (d :: rest) = .referred i d :: referredFrom (i + 1) rest := by
      simp [referredFrom]
    rw [hitems, walk_cons, defineTypes]
    cases hd : d.resolve (p.table start) with
    | error e =>
      have hfails : (Item.referred i d).resolve start p = .error e := by
        rw [Item.resolve, hd]
        rfl
      rw [Item.step_of_error hfails]
      exact Or.inr ⟨_, _, rfl, rfl⟩
    | ok t =>
      have hresolves : (Item.referred i d).resolve start p =
          .ok { p with types := p.types ++ [t] } := by
        rw [Item.resolve, hd]
        rfl
      rw [Item.step_of_ok hresolves]
      dsimp only
      rw [← Progress.table_concat]
      obtain ⟨types, hwalk, hdefine⟩ | ⟨e, table, hwalk, hdefine⟩ :=
        ih { p with types := p.types ++ [t] } (i + 1)
      · rw [List.append_assoc] at hwalk hdefine
        exact Or.inl ⟨t :: types, hwalk, hdefine⟩
      · exact Or.inr ⟨e, table, hwalk, hdefine⟩

/-- A walk over members of one sort resolves them all in one table. The loop that gathers them and
the place where the progress keeps them are left open. -/
theorem walk_members {δ ρ : Type} (loop : Nat → List δ → Except Error (List ρ))
    (one : δ → Except Error ρ) (item : Nat → δ → Item) (kept : List ρ → Progress)
    (table : TypeTable) (hnil : ∀ i, loop i [] = .ok [])
    (hcons : ∀ i d rest, loop i (d :: rest) =
      (one d).mapError (Error.within (item i d).label) >>= fun x =>
        (loop (i + 1) rest).map (x :: ·))
    (hitem : ∀ i d done, (item i d).resolve start (kept done) =
      (one d).map fun x => kept (done ++ [x]))
    (htable : ∀ done, (kept done).table start = table)
    (i : Nat) (done : List ρ) (decls : List δ) :
    walk start (kept done) ((decls.zipIdx i).map fun (d, i) => item i d) =
      ((loop i decls).map fun found => kept (done ++ found)).mapError (·, table) := by
  induction decls generalizing i done with
  | nil =>
    simp only [hnil, Except.map, List.append_nil]
    rfl
  | cons d rest ih =>
    rw [List.zipIdx_cons, List.map_cons, walk_cons, hcons]
    cases hd : one d with
    | error e =>
      have hfails : (item i d).resolve start (kept done) = .error e := by
        rw [hitem, hd]
        rfl
      rw [Item.step_of_error hfails, htable]
      rfl
    | ok x =>
      have hresolves : (item i d).resolve start (kept done) = .ok (kept (done ++ [x])) := by
        rw [hitem, hd]
        rfl
      rw [Item.step_of_ok hresolves]
      refine (ih (i + 1) (done ++ [x])).trans ?_
      change _ = (((loop (i + 1) rest).map (x :: ·)).map
        fun found => kept (done ++ found)).mapError (·, table)
      cases loop (i + 1) rest with
      | error e => rfl
      | ok found => simp [Except.map]

/-- Walking the fields is resolving them, with the same error and the same table. -/
theorem walk_fields (p : Progress) (decls : List FieldDecl) :
    walk start p (fieldsFrom 0 decls) =
      ((resolveFields (p.table start) p.owner 0 decls).map
        fun fields => { p with fields := p.fields ++ fields }).mapError (·, p.table start) := by
  refine walk_members (resolveFields (p.table start) p.owner)
    (FieldDecl.resolve (p.table start) p.owner) .field (fun fields => { p with fields })
    (p.table start) (fun _ => rfl) ?_ (fun _ _ _ => rfl) (fun _ => rfl) 0 p.fields decls
  intro i d rest
  rw [resolveFields]
  cases d.resolve (p.table start) p.owner <;> rfl

/-- Walking the methods is resolving them over the fields there are. -/
theorem walk_methods (p : Progress) (decls : List MethodDecl) :
    walk start p (methodsFrom 0 decls) =
      ((resolveMethods (p.table start) p.owner p.fields 0 decls).map
        fun methods => { p with methods := p.methods ++ methods }).mapError (·, p.table start) := by
  refine walk_members (resolveMethods (p.table start) p.owner p.fields)
    (MethodDecl.resolve (p.table start) p.owner p.fields) .method (fun methods => { p with methods })
    (p.table start) (fun _ => rfl) ?_ (fun _ _ _ => rfl) (fun _ => rfl) 0 p.methods decls
  intro i d rest
  rw [resolveMethods]
  cases d.resolve (p.table start) p.owner p.fields <;> rfl

/-- Members that fail to resolve make the walk over them fail in the same way. -/
theorem walk_members_of_error {table : TypeTable} {owner : TypeDesc} {fields : List FieldDecl}
    {methods : List MethodDecl} {e : Error} (htable : p.table start = table)
    (howner : p.owner = owner) (hnone : p.fields = [])
    (h : (do
      let found ← resolveFields table owner 0 fields
      let planned ← resolveMethods table owner found 0 methods
      return Plan.mk owner found planned) = .error e) :
    walk start p (fieldsFrom 0 fields ++ methodsFrom 0 methods) = .error (e, table) := by
  subst htable howner
  rw [walk_append, walk_fields, hnone]
  obtain hfields | ⟨found, hfields, h⟩ := error_cases_of_bind h
  · rw [hfields]
    rfl
  · rw [hfields]
    change walk start { p with fields := found } (methodsFrom 0 methods) = _
    rw [walk_methods]
    obtain hmethods | ⟨planned, _, h⟩ := error_cases_of_bind h
    · change (Except.map _ (resolveMethods (p.table start) p.owner found 0 methods)).mapError _ = _
      rw [hmethods]
      rfl
    · cases h

/-- A resolution that fails is a walk over the items that fails in the same way. -/
theorem walk_items_of_error {r : Recipe} {e : Error} {after : TypeTable}
    (h : r.resolve start = (.error e, after)) : walk start {} r.items = .error (e, after) := by
  rw [items, walk_append]
  unfold resolve at h
  obtain ⟨types, hwalk, hdefine⟩ | ⟨e', table, hwalk, hdefine⟩ := walk_referred {} 0 r.types
  · let p : Progress := { types }
    change defineTypes 0 start r.types = (.ok (), p.table start) at hdefine
    rw [hdefine] at h
    rw [hwalk]
    change walk start p (.generated r.type :: _) = _
    rw [walk_cons]
    dsimp only at h
    split at h
    · next own hown =>
      cases h
      have hfails : (Item.generated r.type).resolve start p = .error own := by
        rw [Item.resolve, hown]
        rfl
      rw [Item.step_of_error hfails]
      rfl
    · next type htype =>
      have hresolves : (Item.generated r.type).resolve start p =
          .ok { p with types := p.types ++ [type] } := by
        rw [Item.resolve, htype]
        rfl
      obtain ⟨hplan, rfl⟩ := Prod.mk.inj h
      rw [Item.step_of_ok hresolves]
      exact walk_members_of_error (p.table_concat start type) (p.owner_concat type) rfl hplan
  · change defineTypes 0 start r.types = (.error e', table) at hdefine
    rw [hdefine] at h
    cases h
    rw [hwalk]
    rfl

theorem Item.resolve_of_step {item : Item} (h : item.step start p = .ok q) :
    item.resolve start p = .ok q := by
  cases hitem : item.resolve start p with
  | error e =>
    rw [Item.step_of_error hitem] at h
    cases h
  | ok q' =>
    rw [Item.step_of_ok hitem] at h
    cases h
    rfl

/-- A walk that comes through has resolved every item after those before it. -/
theorem foldlM_resolve_of_walk {items : List Item} (h : walk start p items = .ok q) :
    items.foldlM (Item.resolve start) p = .ok q := by
  induction items generalizing p with
  | nil =>
    cases h
    rfl
  | cons item rest ih =>
    rw [walk_cons] at h
    obtain ⟨next, hstep, h⟩ := exists_ok_of_bind h
    rw [List.foldlM_cons, Item.resolve_of_step hstep]
    exact ih h

/-- Only the items that declare types add to the table, each after those before it. -/
theorem definedInOrder_of_foldlM {items : List Item}
    (h : items.foldlM (Item.resolve start) p = .ok q) :
    ∃ types, q.types = p.types ++ types ∧
      DefinedInOrder (p.table start) (items.filterMap Item.typeDecl?) types (q.table start) := by
  induction items generalizing p with
  | nil =>
    cases h
    exact ⟨[], (List.append_nil _).symm, .nil _⟩
  | cons item rest ih =>
    rw [List.foldlM_cons] at h
    obtain ⟨next, hitem, h⟩ := exists_ok_of_bind h
    obtain ⟨types, htypes, hdefined⟩ := ih h
    cases item
    case referred d | generated d =>
      obtain ⟨t, ht, hnext⟩ := exists_ok_of_bind hitem
      cases hnext
      rw [p.table_concat start t] at hdefined
      refine ⟨t :: types, ?_, .cons ht hdefined⟩
      rw [htypes, List.append_assoc]
      rfl
    case field | method =>
      obtain ⟨_, _, hnext⟩ := exists_ok_of_bind hitem
      cases hnext
      exact ⟨types, htypes, hdefined⟩

/-- A resolution that fails has come through the items before some item, and fails with that item's
own error, placed under the label of the item; the table has the types of the items before and
nothing of the item itself. One that succeeds has a plan with all fields and methods in order, and
the table has all types and the generated one. -/
theorem resolve_reports_first_failure (r : Recipe) (table : TypeTable) :
    (∀ e after, r.resolve table = (.error e, after) →
      ∃ before item rest p own, r.items = before ++ item :: rest ∧
        before.foldlM (Item.resolve table) {} = .ok p ∧
        item.resolve table p = .error (.report own) ∧
        e = .report { own with path := item.label ++ own.path } ∧
        DefinedInOrder table (before.filterMap Item.typeDecl?) p.types after ∧
        after = p.types.foldl TypeTable.define table) ∧
    (∀ plan after, r.resolve table = (.ok plan, after) →
      ∃ types, DefinedInOrder table (r.types ++ [r.type]) (types ++ [plan.type]) after ∧
        after = (types ++ [plan.type]).foldl TypeTable.define table ∧
        List.Forall₂ (fun d f => d.resolve after plan.type = .ok f) r.fields plan.fields ∧
        List.Forall₂ (fun d m => d.resolve after plan.type plan.fields = .ok m)
          r.methods plan.methods) := by
  constructor
  · intro e after h
    obtain ⟨before, item, rest, p, hitems, hbefore, hstep⟩ :=
      exists_of_foldlM_eq_error (walk_items_of_error h)
    have hresolved := foldlM_resolve_of_walk hbefore
    obtain ⟨types, htypes, hdefined⟩ := definedInOrder_of_foldlM hresolved
    obtain rfl : types = p.types := htypes.symm
    cases hitem : item.resolve table p with
    | error own =>
      obtain ⟨report, rfl⟩ := item.reports_resolve table p own hitem
      rw [Item.step_of_error hitem] at hstep
      cases hstep
      exact ⟨before, item, rest, p, report, hitems, hresolved, hitem, rfl, hdefined, rfl⟩
    | ok q =>
      rw [Item.step_of_ok hitem] at hstep
      cases hstep
  · intro plan after h
    obtain ⟨types, hdefined, hfields, hmethods⟩ := resolve_eq_ok h
    exact ⟨types, hdefined, hdefined.eq_foldl_define, hfields, hmethods⟩

/-- A modifier that nobody knows, in the second of two types: the error lies at the modifiers of the
second, and the table has the first but not the second. -/
theorem resolve_reports_first_failure_modifier :
    let shape : TypeDecl := { name := "a.Shape", kind := "interface" }
    let solid : TypeDecl := { name := "a.Solid", kind := "interface", modifiers := ["sealed"] }
    let r : Recipe := { type := { name := "a.Cube", kind := "class" }, types := [shape, solid] }
    let e : Error := .report {
      phase := some .load
      kind := .invalidInput
      path := ["types", "1", "modifiers"]
      value := some "sealed"
      detail := "unknown modifier \"sealed\"" }
    ∃ after, r.resolve .builtin = (.error e, after) ∧
      (∃ before item rest p own, r.items = before ++ item :: rest ∧
        before.foldlM (Item.resolve .builtin) {} = .ok p ∧
        item.resolve .builtin p = .error (.report own) ∧
        e = .report { own with path := item.label ++ own.path }) ∧
      (after.lookup? "a/Shape").isSome = true ∧ (after.lookup? "a/Solid").isSome = false := by
  intro shape solid r e
  let t : TypeDesc := .ofInterface (TypeTable.internalName "a.Shape") .empty []
  let after := TypeTable.builtin.define t
  have hresolve : r.resolve .builtin = (.error e, after) := rfl
  obtain ⟨before, item, rest, p, own, hitems, hbefore, hitem, herror, _, _⟩ :=
    (resolve_reports_first_failure r .builtin).1 e after hresolve
  have hname : t.name = "a/Shape" := by
    change TypeTable.internalName "a.Shape" = "a/Shape"
    simp [TypeTable.internalName, ← String.toList_inj]
  have hother : (TypeTable.builtin.lookup? "a/Solid").isSome = false := by decide
  refine ⟨after, hresolve, ⟨before, item, rest, p, own, hitems, hbefore, hitem, herror⟩, ?_, ?_⟩
  · rw [TypeTable.lookup?_define, if_pos hname]
    rfl
  · rw [TypeTable.lookup?_define, if_neg (by rw [hname]; decide)]
    exact hother

/-- The plan of a recipe carries what the recipe declares, item by item and in order: the types have
the declared names, the fields the declared names, types and modifiers, and the methods besides the
implementations that their bodies ask for. -/
theorem resolve_carries_declarations {r : Recipe} {table after : TypeTable} {plan : Plan}
    (h : r.resolve table = (.ok plan, after)) :
    ∃ types, after.types = (types ++ [plan.type]).reverse ++ table.types ∧
      List.Forall₂ (fun d t => t.name = TypeTable.internalName d.name)
        (r.types ++ [r.type]) (types ++ [plan.type]) ∧
      List.Forall₂ (FieldDecl.Planned after plan.type) r.fields plan.fields ∧
      List.Forall₂ (MethodDecl.Planned after plan.type plan.fields) r.methods plan.methods := by
  obtain ⟨types, hdefined, hfields, hmethods⟩ := resolve_eq_ok h
  refine ⟨types, hdefined.types_eq, hdefined.names, ?_, ?_⟩
  · exact hfields.imp fun _ _ => FieldDecl.resolve_eq_ok_iff.mp
  · exact hmethods.imp fun _ _ => MethodDecl.resolve_eq_ok_iff.mp

end Recipe

end OperandStack
