import Mathlib.Data.List.TakeWhile
import OperandStack.Member
import OperandStack.Proofs.Type.Coherence

/-!
# The grammar of descriptors

A descriptor that can be resolved against a table is the descriptor of exactly one
type, or of the types of one method, over that table. Both directions are first shown
for a type at the front of a text: what has been read is the descriptor of the type,
and a descriptor is read back whatever follows it.
-/

namespace OperandStack

namespace TypeTable

open TypeDesc

variable {table : TypeTable} {whole : String} {i : Nat} {cs rest : List Char} {t : TypeDesc}

/-- A table of classes and interfaces whose names are not empty and do not hold the character that
ends a name in descriptors. -/
def Spellable (table : TypeTable) : Prop :=
  ∀ name t, table.lookup? name = some t → name ≠ "" ∧ ';' ∉ name.toList ∧
    ∃ modifiers superClass interfaces, t = .declared name modifiers superClass interfaces

end TypeTable

/-- A spellable table. -/
structure SpellableTable extends TypeTable where
  spellable : toTypeTable.Spellable

namespace SpellableTable

/-- The table of the types that are always there. -/
def builtin : SpellableTable where
  toTypeTable := .builtin
  spellable name t h := by
    have ht : t ∈ TypeDesc.builtins := List.mem_reverse.mp (TypeTable.mem_of_lookup? h)
    have hnamed : t.name = name := by simpa using List.find?_some h
    have hnames : ∀ s ∈ TypeDesc.builtins.map TypeDesc.name, s ≠ "" ∧ ';' ∉ s.toList := by decide
    obtain ⟨hname, hplain⟩ := hnames t.name (List.mem_map_of_mem ht)
    rw [hnamed] at hname hplain
    obtain ⟨⟨known, modifiers, superClass, interfaces, rfl⟩, _⟩ := TypeDesc.builtins_cases ht
    have hknown : known = name := hnamed
    rw [hknown]
    exact ⟨hname, hplain, modifiers, superClass, interfaces, rfl⟩

/-- The table with a further class or interface, or with one in place of another. -/
def define (table : SpellableTable) (name : String) (modifiers : Modifiers)
    (superClass : Option TypeDesc) (interfaces : List TypeDesc) (hname : name ≠ "")
    (hplain : ';' ∉ name.toList) : SpellableTable where
  toTypeTable := table.toTypeTable.define (.declared name modifiers superClass interfaces)
  spellable key t h := by
    rw [TypeTable.lookup?_define] at h
    split at h
    · next hkey =>
      cases h
      subst hkey
      exact ⟨hname, hplain, modifiers, superClass, interfaces, rfl⟩
    · exact table.spellable key t h

end SpellableTable

namespace TypeTable

open TypeDesc

variable {table : TypeTable} {whole : String} {i : Nat} {cs rest : List Char} {t : TypeDesc}

/-- The types with values over a table: primitive types, the types it defines, and arrays of these
to any depth. -/
inductive ValueType (table : TypeTable) : TypeDesc → Prop where
  | primitive (p : Primitive) : ValueType table (.primitive p)
  | declared {name : String} {modifiers : Modifiers} {superClass : Option TypeDesc}
      {interfaces : List TypeDesc}
      (h : table.Defines (.declared name modifiers superClass interfaces)) :
      ValueType table (.declared name modifiers superClass interfaces)
  | array {component : TypeDesc} (h : ValueType table component) :
      ValueType table (.array component)

/-- What a return type may be over a table. -/
def ReturnType (table : TypeTable) (t : TypeDesc) : Prop := t = .void ∨ table.ValueType t

theorem ValueType.not_isVoid (h : table.ValueType t) : t.isVoid = false := by
  cases h <;> rfl

/-- All return types but `void` are types of values. -/
theorem ReturnType.valueType (h : table.ReturnType t) (hvoid : t.isVoid = false) :
    table.ValueType t := by
  rcases h with rfl | h
  · cases hvoid
  · exact h

/-- A letter stands for the type whose descriptor it is. -/
theorem ofLetter?_eq_some (table : TypeTable) {c : Char} (h : ofLetter? c = some t) :
    t.descriptor.toList = [c] ∧ table.ReturnType t := by
  rcases ofLetter?_cases h with ⟨rfl, rfl⟩ | ⟨p, rfl, rfl⟩
  · exact ⟨rfl, Or.inl rfl⟩
  · exact ⟨toList_descriptor_primitive p, Or.inr (.primitive p)⟩

/-- What is left of a text after all in front of a character starts with that character. -/
theorem eq_append_of_dropWhile {stop c : Char} {after : List Char}
    (h : rest.dropWhile (· ≠ stop) = c :: after) :
    rest = rest.takeWhile (· ≠ stop) ++ stop :: after := by
  have hc : c = stop := by
    have hhead := List.head?_dropWhile_not (fun c => decide (c ≠ stop)) rest
    rw [h] at hhead
    simpa using hhead
  rw [hc] at h
  rw [← h, List.takeWhile_append_dropWhile]

theorem notMem_takeWhile_ne (c : Char) (cs : List Char) : c ∉ cs.takeWhile (· ≠ c) := by
  intro hc
  simpa using List.mem_takeWhile_imp hc

/-- Reading parameters goes on behind the first one. -/
theorem parseParameters_of_parseType {p : Parsed} {more : ParsedParameters}
    (hhead : cs.head? ≠ some ')') (hread : table.parseType whole i cs = .ok p)
    (hvoid : p.type.isVoid = false)
    (hmore : table.parseParameters whole p.offset p.rest = .ok more) :
    table.parseParameters whole i cs = .ok { more with types := p.type :: more.types } := by
  unfold parseParameters
  split
  · cases hread
  · simp at hhead
  · split
    · next herror =>
      rw [hread] at herror
      cases herror
    · next hok =>
      rw [hread] at hok
      cases hok
      simp only [hvoid, hmore]
      rfl

end TypeTable

namespace SpellableTable

open TypeDesc TypeTable

variable {whole : String} {i : Nat} {cs rest : List Char} {t : TypeDesc}

/-- A name that a table knows stands for a type with that name. -/
theorem toList_descriptor (table : SpellableTable) {name : List Char}
    (h : table.lookup? (String.ofList name) = some t) :
    t.descriptor.toList = 'L' :: (name ++ [';']) ∧ table.ValueType t := by
  obtain ⟨_, _, modifiers, superClass, interfaces, rfl⟩ := table.spellable _ t h
  refine ⟨by simp, .declared ?_⟩
  exact h

/-- What has been read as a type is the descriptor of that type. -/
theorem parseType_sound (table : SpellableTable) {p : Parsed}
    (h : table.parseType whole i cs = .ok p) :
    cs = p.type.descriptor.toList ++ p.rest ∧ table.ReturnType p.type := by
  fun_induction TypeTable.parseType table.toTypeTable whole i cs generalizing p with
  | case1 => cases h
  | case2 i rest ih =>
    obtain ⟨component, hcomponent, hp⟩ := exists_ok_of_bind h
    obtain ⟨hrest, htype⟩ := ih hcomponent
    split at hp
    · cases hp
    · next hvoid =>
      cases hp
      have hvalue := htype.valueType (Bool.eq_false_iff.mpr hvoid)
      refine ⟨?_, Or.inr hvalue.array⟩
      rw [hrest]
      simp
  | case3 => cases h
  | case4 => cases h
  | case5 i rest name c after hdrop _ t =>
    next hlookup =>
    cases h
    obtain ⟨hdescriptor, hvalue⟩ := table.toList_descriptor hlookup
    refine ⟨?_, Or.inr hvalue⟩
    rw [hdescriptor, eq_append_of_dropWhile hdrop]
    simp [name]
  | case6 => cases h
  | case7 i c rest _ _ t hletter =>
    cases h
    obtain ⟨hdescriptor, htype⟩ := ofLetter?_eq_some table.toTypeTable hletter
    rw [hdescriptor]
    exact ⟨rfl, htype⟩
  | case8 => cases h

/-- A name is read back up to the character that ends it. -/
theorem parseType_declared (table : SpellableTable) {name : String} {modifiers : Modifiers}
    {superClass : Option TypeDesc} {interfaces : List TypeDesc}
    (h : table.Defines (.declared name modifiers superClass interfaces)) (whole : String) (i : Nat)
    (rest : List Char) :
    table.parseType whole i
        ((declared name modifiers superClass interfaces).descriptor.toList ++ rest) =
      .ok ⟨.declared name modifiers superClass interfaces, i + byteLength name.toList + 2,
        rest⟩ := by
  have hlookup : table.lookup? name = some (.declared name modifiers superClass interfaces) := h
  obtain ⟨hname, hplain, _⟩ := table.spellable name _ hlookup
  have hall : ∀ c ∈ name.toList, decide (c ≠ ';') = true := by
    intro c hc
    simp only [decide_eq_true_eq]
    rintro rfl
    exact hplain hc
  have hnonempty : name.toList.isEmpty = false := by
    rw [List.isEmpty_eq_false_iff, Ne, String.toList_eq_nil_iff]
    exact hname
  rw [toList_descriptor_declared, List.cons_append, List.append_assoc, TypeTable.parseType]
  simp only [List.takeWhile_append_of_pos hall, List.dropWhile_append_of_pos hall]
  simp [hnonempty, hlookup]

/-- The descriptor of a type over the table is read back, whatever follows. -/
theorem parseType_descriptor (table : SpellableTable) (h : table.ReturnType t) (whole : String)
    (i : Nat) (rest : List Char) :
    ∃ offset, table.parseType whole i (t.descriptor.toList ++ rest) = .ok ⟨t, offset, rest⟩ := by
  rcases h with rfl | h
  · exact ⟨i + 1, rfl⟩
  · induction h generalizing i with
    | primitive p =>
      rw [toList_descriptor_primitive]
      exact ⟨i + 1, by cases p <;> rfl⟩
    | declared h => exact ⟨_, table.parseType_declared h whole i rest⟩
    | array h ih =>
      obtain ⟨offset, hcomponent⟩ := ih (i + 1)
      refine ⟨offset, ?_⟩
      rw [toList_descriptor_array, List.cons_append, TypeTable.parseType, hcomponent]
      simp only [bind, Except.bind, h.not_isVoid]
      rfl

/-- Field descriptors that can be resolved are the descriptors of the types over the table. -/
theorem parseField_eq_ok_iff (table : SpellableTable) {descriptor : String} :
    table.parseField descriptor = .ok t ↔ descriptor = t.descriptor ∧ table.ReturnType t := by
  constructor
  · intro h
    obtain ⟨p, hp, hrest⟩ := exists_ok_of_bind h
    obtain ⟨hread, htype⟩ := table.parseType_sound hp
    split at hrest
    · next hend =>
      cases hrest
      rw [List.isEmpty_iff.mp hend, List.append_nil] at hread
      exact ⟨String.toList_inj.mp hread, htype⟩
    · cases hrest
  · rintro ⟨rfl, htype⟩
    obtain ⟨offset, hread⟩ := table.parseType_descriptor htype t.descriptor 0 []
    rw [List.append_nil] at hread
    simp only [TypeTable.parseField, hread, bind, Except.bind]
    rfl

/-- What has been read as parameters are the descriptors of types with values, up to and with the
closing parenthesis. -/
theorem parseParameters_sound (table : SpellableTable) {p : ParsedParameters}
    (h : table.parseParameters whole i cs = .ok p) :
    cs = (p.types.flatMap fun t => t.descriptor.toList) ++ ')' :: p.rest ∧
      ∀ t ∈ p.types, table.ValueType t := by
  fun_induction TypeTable.parseParameters table.toTypeTable whole i cs generalizing p with
  | case1 => cases h
  | case2 i rest =>
    cases h
    exact ⟨rfl, by simp⟩
  | case3 => cases h
  | case4 => cases h
  | case5 => cases h
  | case6 i c rest _ first hfirst hvoid _ more _ ih =>
    next hmore =>
    cases h
    obtain ⟨hread, htype⟩ := table.parseType_sound hfirst
    obtain ⟨hrest, hmore⟩ := ih hmore
    refine ⟨?_, ?_⟩
    · rw [hread, hrest]
      simp
    · rintro t (_ | ⟨_, ht⟩)
      · exact htype.valueType (Bool.eq_false_iff.mpr hvoid)
      · exact hmore t ht

/-- The descriptors of types with values are read back as parameters, whatever follows the closing
parenthesis. -/
theorem parseParameters_descriptors (table : SpellableTable) {types : List TypeDesc}
    (h : ∀ t ∈ types, table.ValueType t) (whole : String) (i : Nat) (rest : List Char) :
    ∃ offset, table.parseParameters whole i
        ((types.flatMap fun t => t.descriptor.toList) ++ ')' :: rest) =
      .ok ⟨types, offset, rest⟩ := by
  induction types generalizing i with
  | nil =>
    refine ⟨i + 1, ?_⟩
    simp [TypeTable.parseParameters]
  | cons t types ih =>
    have ht := h t List.mem_cons_self
    obtain ⟨behind, hread⟩ := table.parseType_descriptor (Or.inr ht) whole i
      ((types.flatMap fun t => t.descriptor.toList) ++ ')' :: rest)
    obtain ⟨offset, hmore⟩ := ih (fun u hu => h u (List.mem_cons_of_mem _ hu)) behind
    refine ⟨offset, ?_⟩
    rw [List.flatMap_cons, List.append_assoc]
    exact parseParameters_of_parseType (t.head?_descriptor_ne _) hread ht.not_isVoid hmore

/-- Method descriptors that can be resolved are the descriptors of the methods over the table. -/
theorem parseMethod_eq_ok_iff (table : SpellableTable) {descriptor : String} {s : Signature} :
    table.parseMethod descriptor = .ok s ↔
      descriptor = "(" ++ String.join (s.parameters.map TypeDesc.descriptor) ++ ")" ++
        s.returns.descriptor ∧
      (∀ t ∈ s.parameters, table.ValueType t) ∧ table.ReturnType s.returns := by
  constructor
  · intro h
    unfold TypeTable.parseMethod at h
    split at h
    · next rest hopen =>
      obtain ⟨parameters, hparameters, h⟩ := exists_ok_of_bind h
      obtain ⟨returned, hreturned, h⟩ := exists_ok_of_bind h
      obtain ⟨hrest, htypes⟩ := table.parseParameters_sound hparameters
      obtain ⟨hbehind, htype⟩ := table.parseType_sound hreturned
      split at h
      · next hend =>
        cases h
        refine ⟨String.toList_inj.mp ?_, htypes, htype⟩
        rw [List.isEmpty_iff.mp hend, List.append_nil] at hbehind
        rw [Method.toList_descriptorText, hopen, hrest, hbehind]
      · cases h
    · cases h
  · rintro ⟨rfl, htypes, htype⟩
    unfold TypeTable.parseMethod
    rw [Method.toList_descriptorText]
    generalize "(" ++ String.join (s.parameters.map TypeDesc.descriptor) ++ ")" ++
        s.returns.descriptor = whole
    obtain ⟨behind, hparameters⟩ := table.parseParameters_descriptors htypes whole 1
      s.returns.descriptor.toList
    obtain ⟨offset, hreturned⟩ := table.parseType_descriptor htype whole behind []
    rw [List.append_nil] at hreturned
    simp only [hparameters, hreturned, bind, Except.bind]
    rfl

end SpellableTable

namespace TypeTable

open TypeDesc

variable {table : TypeTable}

/-- Over every spellable table the resolved descriptors are exactly the rendered ones: a field
descriptor gives the type it renders, a method descriptor the types of its parameters and its
result, and the descriptor of a method over the table gives back the types of that method.

A table is spellable if every name in it is a name of a class or interface, not empty and without
the character that ends names. A table may be given other types: where an array stands under its
own name, that name in a class descriptor is resolved to the array, which renders otherwise. -/
theorem parse_eq_ok_iff_rendered (h : table.Spellable) (descriptor : String) :
    (∀ t, table.parseField descriptor = .ok t ↔
      descriptor = t.descriptor ∧ table.ReturnType t) ∧
    (∀ s : Signature, table.parseMethod descriptor = .ok s ↔
      descriptor = "(" ++ String.join (s.parameters.map TypeDesc.descriptor) ++ ")" ++
        s.returns.descriptor ∧
      (∀ t ∈ s.parameters, table.ValueType t) ∧ table.ReturnType s.returns) ∧
    ∀ m : Method, (∀ t ∈ m.parameters, table.ValueType t) → table.ReturnType m.returns →
      table.parseMethod m.descriptor = .ok ⟨m.returns, m.parameters⟩ := by
  let spellable : SpellableTable := ⟨table, h⟩
  refine ⟨fun t => spellable.parseField_eq_ok_iff, fun s => spellable.parseMethod_eq_ok_iff, ?_⟩
  intro m hparameters hreturns
  exact spellable.parseMethod_eq_ok_iff.mpr ⟨rfl, hparameters, hreturns⟩

/-- A method over arrays of a declared class and a long, with no result. -/
theorem parse_eq_ok_iff_rendered_box :
    let box := ofClass "pkg/Box" .isPublic none []
    let table := builtin.define box
    let fill : Method := ⟨box, "fill", .isPublic, .void, [array (array box), .primitive .long]⟩
    table.Spellable ∧ (∀ t ∈ fill.parameters, table.ValueType t) ∧
      table.ReturnType fill.returns ∧ fill.descriptor = "([[Lpkg/Box;J)V" ∧
      table.parseMethod fill.descriptor = .ok ⟨.void, [array (array box), .primitive .long]⟩ := by
  intro box table fill
  have htable : table.Spellable :=
    (SpellableTable.builtin.define "pkg/Box" _ none [] (by decide) (by decide)).spellable
  have hparameters : ∀ t ∈ fill.parameters, table.ValueType t := by
    have hbox : table.ValueType box := .declared rfl
    intro t ht
    simp only [fill, List.mem_cons, List.not_mem_nil, or_false] at ht
    rcases ht with rfl | rfl
    · exact hbox.array.array
    · exact .primitive .long
  have hreturns : table.ReturnType fill.returns := Or.inl rfl
  obtain ⟨_, _, hmethod⟩ := parse_eq_ok_iff_rendered htable fill.descriptor
  exact ⟨htable, hparameters, hreturns, by decide, hmethod fill hparameters hreturns⟩

end TypeTable

end OperandStack
