import OperandStack.Proofs.Recipe.Resolution
import OperandStack.Proofs.Type.Description

/-!
# Targets rendered from methods

The target of a delegation is written as methods are rendered. The text is taken apart at
its first parenthesis and at the last point before that, and the parts are resolved by
different rules. Where the names of types hold no parenthesis, the parts are those that the
rendering was put together from, and the method is found again.
-/

namespace OperandStack

open TypeTable

variable {table : TypeTable}

namespace Modifiers

theorem union_assoc (f g h : Modifiers) : (f.union g).union h = f.union (g.union h) := by
  simp [union, UInt16.or_assoc]

@[simp] theorem union_empty (f : Modifiers) : f.union empty = f := by
  simp [union, empty]

@[simp] theorem empty_union (f : Modifiers) : empty.union f = f := by
  simp [union, empty]

/-- A set that is there at the start may as well be joined at the end. -/
theorem foldl_union (f g : Modifiers) (sets : List Modifiers) :
    sets.foldl union (f.union g) = f.union (sets.foldl union g) := by
  induction sets generalizing g with
  | nil => rfl
  | cons h rest ih => rw [List.foldl_cons, union_assoc, ih, List.foldl_cons]

theorem unionAll_cons (f : Modifiers) (sets : List Modifiers) :
    unionAll (f :: sets) = f.union (unionAll sets) := by
  rw [unionAll, List.foldl_cons, empty_union, unionAll]
  conv_lhs => rw [← union_empty f]
  exact foldl_union f empty sets

end Modifiers

/-- Keywords that are all known stand for the union of their flags. -/
theorem resolveModifiers_eq_unionAll {names : List String}
    (h : ∀ name ∈ names, (Modifiers.ofKeyword? name).isSome = true) :
    resolveModifiers names = .ok (.unionAll (names.filterMap Modifiers.ofKeyword?)) := by
  induction names with
  | nil => rfl
  | cons name rest ih =>
    rw [List.forall_mem_cons] at h
    obtain ⟨flag, hflag⟩ := Option.isSome_iff_exists.mp h.1
    rw [List.filterMap_cons_some hflag, Modifiers.unionAll_cons, resolveModifiers, hflag,
      ih h.2]
    rfl

theorem forall_ne_of_notMem {c : Char} {front : List Char} (h : c ∉ front) :
    ∀ d ∈ front, decide (d ≠ c) = true := fun _ hd =>
  decide_eq_true (ne_of_mem_of_not_mem hd h)

/-- The part before a separator ends at its first occurrence. -/
theorem takeWhile_ne_append {c : Char} {front : List Char} (h : c ∉ front) (back : List Char) :
    (front ++ c :: back).takeWhile (· ≠ c) = front := by
  rw [List.takeWhile_append_of_pos (forall_ne_of_notMem h), List.takeWhile_cons_of_neg (by simp),
    List.append_nil]

theorem dropWhile_ne_append {c : Char} {front : List Char} (h : c ∉ front) (back : List Char) :
    (front ++ c :: back).dropWhile (· ≠ c) = c :: back := by
  rw [List.dropWhile_append_of_pos (forall_ne_of_notMem h), List.dropWhile_cons_of_neg (by simp)]

/-- A target with an owner and a name is resolved part by part: the owner as a type, the rest from
the parenthesis on as a method descriptor. -/
theorem resolveTarget_of_parts {owner name descriptor : String} {rest : List Char}
    (howner : owner ≠ "") (hname : name ≠ "") (hopenOwner : '(' ∉ owner.toList)
    (hopenName : '(' ∉ name.toList) (hpoint : '.' ∉ name.toList)
    (hdescriptor : descriptor.toList = '(' :: rest) (modifiers : List String) :
    resolveTarget table (owner ++ "." ++ name ++ descriptor) modifiers = (do
      let t ← table.describe owner
      let signature ← table.parseMethod descriptor
      let flags ← resolveModifiers modifiers
      return ⟨t, name, if flags = .empty then .isPublic else flags, signature.returns,
        signature.parameters⟩) := by
  have htarget : (owner ++ "." ++ name ++ descriptor).toList =
      (owner.toList ++ '.' :: name.toList) ++ '(' :: rest := by
    simp [hdescriptor]
  have hopen : '(' ∉ owner.toList ++ '.' :: name.toList := by
    rw [List.mem_append, List.mem_cons, not_or, not_or]
    exact ⟨hopenOwner, by decide, hopenName⟩
  have hpath : (owner.toList ++ '.' :: name.toList).reverse =
      name.toList.reverse ++ '.' :: owner.toList.reverse := by
    simp
  have hreversed : '.' ∉ name.toList.reverse := by
    rwa [List.mem_reverse]
  have hback : String.ofList ('(' :: rest) = descriptor := by
    rw [← hdescriptor, String.ofList_toList]
  unfold resolveTarget
  simp only [htarget, takeWhile_ne_append hopen, dropWhile_ne_append hopen, hpath,
    takeWhile_ne_append hreversed, dropWhile_ne_append hreversed, List.drop_succ_cons,
    List.drop_zero, List.reverse_reverse, String.ofList_toList, hback]
  simp [howner, hname]

/-- A method over a table whose name can be told from the owner in front of it and from the
descriptor behind it. -/
structure Method.Locatable (table : TypeTable) (m : Method) : Prop where
  owner : table.Knows m.owner
  owner_reference : m.owner.isReference = true
  name_ne_empty : m.name ≠ ""
  no_point : '.' ∉ m.name.toList
  no_parenthesis : '(' ∉ m.name.toList
  parameters : ∀ t ∈ m.parameters, table.Knows t ∧ t.isVoid = false
  returns : table.Knows m.returns

/-- Parentheses could come into a descriptor by the names of types only. -/
theorem TypeTable.Knows.no_parenthesis {t : TypeDesc} (h : table.Knows t)
    (hnames : ∀ name u, table.lookup? name = some u → '(' ∉ name.toList) :
    '(' ∉ t.descriptor.toList := by
  induction h with
  | void => decide
  | primitive p => cases p <;> decide
  | declared h =>
    obtain ⟨u, hu⟩ := Option.isSome_iff_exists.mp h
    simpa using hnames _ u hu
  | array _ _ ih => simpa using ih

/-- The internal name of a reference type is that of a definition or the descriptor of an array. -/
theorem TypeTable.Knows.name_of_reference {t : TypeDesc} (htable : table.Legible)
    (hnames : ∀ name u, table.lookup? name = some u → '(' ∉ name.toList) (h : table.Knows t)
    (href : t.isReference = true) : t.name ≠ "" ∧ '(' ∉ t.name.toList := by
  cases h with
  | void => cases href
  | primitive p => cases href
  | declared h =>
    obtain ⟨u, hu⟩ := Option.isSome_iff_exists.mp h
    exact ⟨(htable _ u hu).1.ne_empty, hnames _ u hu⟩
  | array h hvoid =>
    rw [name_array]
    refine ⟨?_, (h.array hvoid).no_parenthesis hnames⟩
    intro hempty
    have hchars := congrArg String.toList hempty
    simp at hchars

/-- Parameters are spelled like types over the present definitions. -/
theorem exists_parameters_spelledAlike (htable : table.Legible) {types : List TypeDesc}
    (h : ∀ t ∈ types, table.Knows t ∧ t.isVoid = false) :
    ∃ found, (∀ u ∈ found, table.ValueType u) ∧
      found.map TypeDesc.descriptor = types.map TypeDesc.descriptor ∧
      List.Forall₂ (fun u t => u.same t = true) found types := by
  induction types with
  | nil => exact ⟨[], by simp, rfl, .nil⟩
  | cons t rest ih =>
    rw [List.forall_mem_cons] at h
    obtain ⟨⟨hknown, hvoid⟩, hrest⟩ := h
    obtain ⟨u, htype, halike⟩ := hknown.exists_spelledAlike htable
    obtain ⟨found, hvalues, hdescriptors, hsame⟩ := ih hrest
    have hvalue : table.ValueType u := htype.valueType (halike.isVoid_eq.trans hvoid)
    refine ⟨u :: found, List.forall_mem_cons.mpr ⟨hvalue, hvalues⟩, ?_, .cons halike.same hsame⟩
    rw [List.map_cons, List.map_cons, halike.descriptor_eq, hdescriptors]

/-- The descriptor of a method is resolved to types that denote its own. -/
theorem parseMethod_descriptor (htable : table.Legible) {m : Method}
    (hparameters : ∀ t ∈ m.parameters, table.Knows t ∧ t.isVoid = false)
    (hreturns : table.Knows m.returns) :
    ∃ signature, table.parseMethod m.descriptor = .ok signature ∧
      signature.returns.same m.returns = true ∧
      List.Forall₂ (fun u t => u.same t = true) signature.parameters m.parameters := by
  obtain ⟨returned, htype, halike⟩ := hreturns.exists_spelledAlike htable
  obtain ⟨found, hvalues, hdescriptors, hsame⟩ := exists_parameters_spelledAlike htable hparameters
  refine ⟨⟨returned, found⟩, ?_, halike.same, hsame⟩
  refine htable.toSpellable.parseMethod_eq_ok_iff.mpr ⟨?_, hvalues, htype⟩
  rw [Method.descriptor, hdescriptors, halike.descriptor_eq]

/-- A method over a table of legible names without parentheses is found again by its rendering: the
owner, the result and the parameters denote the same types, and the name is the same. It has the
flags that are named, and is public if none is set. -/
theorem resolveTarget_text (htable : table.Legible)
    (hnames : ∀ name t, table.lookup? name = some t → '(' ∉ name.toList) {m : Method}
    (hm : m.Locatable table) {modifiers : List String}
    (hmodifiers : ∀ name ∈ modifiers, (Modifiers.ofKeyword? name).isSome = true) :
    ∃ found, resolveTarget table m.text modifiers = .ok found ∧
      found.owner.same m.owner = true ∧ found.name = m.name ∧
      found.returns.same m.returns = true ∧
      List.Forall₂ (fun u t => u.same t = true) found.parameters m.parameters ∧
      found.modifiers =
        if Modifiers.unionAll (modifiers.filterMap Modifiers.ofKeyword?) = .empty then .isPublic
        else .unionAll (modifiers.filterMap Modifiers.ofKeyword?) := by
  obtain ⟨hownerName, hopenOwner⟩ := hm.owner.name_of_reference htable hnames hm.owner_reference
  obtain ⟨owner, htype, halike⟩ := hm.owner.exists_spelledAlike htable
  have howner : table.describe m.owner.name = .ok owner := by
    rw [← halike.name_eq]
    exact htable.describe_name htype
  obtain ⟨signature, hsignature, hreturns, hparameters⟩ :=
    parseMethod_descriptor htable hm.parameters hm.returns
  have hflags := resolveModifiers_eq_unionAll hmodifiers
  have hdescriptor : m.descriptor.toList = '(' :: _ :=
    Method.toList_descriptorText m.parameters m.returns
  let flags := Modifiers.unionAll (modifiers.filterMap Modifiers.ofKeyword?)
  refine ⟨⟨owner, m.name, if flags = .empty then .isPublic else flags, signature.returns,
    signature.parameters⟩, ?_, halike.same, rfl, hreturns, hparameters, rfl⟩
  rw [Method.text, resolveTarget_of_parts hownerName hm.name_ne_empty hopenOwner
    hm.no_parenthesis hm.no_point hdescriptor, howner, hsignature, hflags]
  rfl

/-- A method of an array type with an array for parameter, found with two flags. -/
theorem resolveTarget_text_arrayOwner :
    let list : TypeDesc := .ofClass "Lib/List" .isPublic none []
    let table := builtin.define list
    let m : Method :=
      ⟨.array (.array list), "copy", .isPublic, .void, [.primitive .long, .array list]⟩
    table.Legible ∧ m.Locatable table ∧ m.text = "[[LLib/List;.copy(J[LLib/List;)V" ∧
      ∃ found, resolveTarget table m.text ["static", "final"] = .ok found ∧
        found.owner.same m.owner = true ∧ found.name = "copy" ∧
        found.returns.same .void = true ∧
        List.Forall₂ (fun u t => u.same t = true) found.parameters m.parameters ∧
        found.modifiers = ⟨0x0018⟩ := by
  intro list table m
  have htable : table.Legible :=
    builtin_legible.define ⟨by decide, by decide, by decide, by decide, by decide⟩
  have hnames : ∀ name t, table.lookup? name = some t → '(' ∉ name.toList := by
    have hall : ∀ name ∈ table.types.map TypeDesc.name, '(' ∉ name.toList := by decide
    intro name t h
    have hname : t.name = name := by simpa using List.find?_some h
    exact hname ▸ hall t.name (List.mem_map_of_mem (mem_of_lookup? h))
  have hlist : table.Knows list := .declared rfl
  have hm : m.Locatable table := {
    owner := (hlist.array rfl).array rfl
    owner_reference := rfl
    name_ne_empty := by decide
    no_point := by decide
    no_parenthesis := by decide
    parameters := by
      rw [List.forall_mem_cons, List.forall_mem_singleton]
      exact ⟨⟨.primitive .long, rfl⟩, hlist.array rfl, rfl⟩
    returns := .void }
  have hmodifiers : ∀ name ∈ ["static", "final"], (Modifiers.ofKeyword? name).isSome = true := by
    decide
  exact ⟨htable, hm, by decide, resolveTarget_text htable hnames hm hmodifiers⟩

end OperandStack
