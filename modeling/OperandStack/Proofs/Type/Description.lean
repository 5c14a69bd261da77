import OperandStack.Proofs.Type.Grammar
import OperandStack.Proofs.Type.Spelling

/-!
# Types described by their own spellings

A type has three spellings: one with dots and brackets, its internal name, and its
descriptor. The rules for spellings are tried in a fixed order, and a name that one of the
first rules lays hold of is never looked up. Over a table of legible names this happens to
no type: whichever way it is spelled, a type that the table knows is described as itself.
-/

namespace OperandStack

namespace TypeTable

open TypeDesc

variable {table : TypeTable} {s : String} {t : TypeDesc}

/-- A name that only the last rule for spellings applies to. It is neither empty nor a keyword nor
a descriptor letter, and holds no character that separates packages, ends a name in a descriptor
or marks an array. -/
structure LegibleName (name : String) : Prop where
  ne_empty : name ≠ ""
  unreserved : name ∉ voidSpellings ++ primitiveSpellings
  no_point : '.' ∉ name.toList
  no_end : ';' ∉ name.toList
  no_bracket : '[' ∉ name.toList

/-- A table of classes and interfaces with legible names. -/
def Legible (table : TypeTable) : Prop :=
  ∀ name t, table.lookup? name = some t → LegibleName name ∧
    ∃ modifiers superClass interfaces, t = .declared name modifiers superClass interfaces

/-- Legible names can be written in descriptors. -/
theorem Legible.spellable (h : table.Legible) : table.Spellable := by
  intro name t ht
  obtain ⟨hname, hdeclared⟩ := h name t ht
  exact ⟨hname.ne_empty, hname.no_end, hdeclared⟩

/-- A table of legible names as a spellable one. -/
def Legible.toSpellable (h : table.Legible) : SpellableTable := ⟨table, h.spellable⟩

/-- The names of the built-in types are legible. -/
theorem builtin_legible : builtin.Legible := by
  intro name t h
  obtain ⟨_, _, hdeclared⟩ := SpellableTable.builtin.spellable name t h
  refine ⟨?_, hdeclared⟩
  have ht : t ∈ builtins := List.mem_reverse.mp (mem_of_lookup? h)
  have hnamed : t.name = name := by simpa using List.find?_some h
  have hnames : ∀ s ∈ builtins.map TypeDesc.name, s ≠ "" ∧
      s ∉ voidSpellings ++ primitiveSpellings ∧ '.' ∉ s.toList ∧ ';' ∉ s.toList ∧
      '[' ∉ s.toList := by decide
  obtain ⟨hempty, hreserved, hpoint, hend, hbracket⟩ := hnames t.name (List.mem_map_of_mem ht)
  rw [hnamed] at hempty hreserved hpoint hend hbracket
  exact ⟨hempty, hreserved, hpoint, hend, hbracket⟩

/-- A declaration under a legible name keeps a table legible, also one that replaces another. -/
theorem Legible.define (htable : table.Legible) {name : String} {modifiers : Modifiers}
    {superClass : Option TypeDesc} {interfaces : List TypeDesc} (hname : LegibleName name) :
    (table.define (.declared name modifiers superClass interfaces)).Legible := by
  intro key t h
  rw [lookup?_define] at h
  split at h
  · next hkey =>
    cases h
    subst hkey
    exact ⟨hname, modifiers, superClass, interfaces, rfl⟩
  · exact htable key t h

/-- A spelling without brackets at its end is left to the rules for such spellings. -/
theorem describe_of_not_suffix (table : TypeTable) (h : ¬ ['[', ']'] <:+ s.toList) :
    table.describe s = table.describeSimple s := by
  unfold describe describeReversed
  split
  · next rest hrest =>
    have hs := congrArg List.reverse hrest
    rw [List.reverse_reverse, List.reverse_cons, List.reverse_cons, List.append_assoc] at hs
    exact absurd ⟨rest.reverse, hs.symm⟩ h
  · rw [List.reverse_reverse, String.ofList_toList]

/-- Brackets behind a spelling stand for an array of what it is described as. -/
theorem describe_brackets (h : table.describe s = .ok t) (hvoid : t.isVoid = false) :
    table.describe (s ++ "[]") = .ok (.array t) := by
  have hreverse : (s ++ "[]").toList.reverse = ']' :: '[' :: s.toList.reverse := by simp
  have hcomponent : table.describeReversed s.toList.reverse = .ok t := h
  rw [describe, hreverse, describeReversed, hcomponent]
  simp only [bind, Except.bind, hvoid]
  rfl

theorem mem_reserved_of_ofLetter? {c : Char} (h : ofLetter? c = some t) :
    c.toString ∈ voidSpellings ++ primitiveSpellings := by
  rw [List.mem_append]
  rcases ofLetter?_cases h with ⟨rfl, _⟩ | ⟨p, rfl, _⟩
  · exact Or.inl (by decide)
  · exact Or.inr (mem_primitiveSpellings.mpr ⟨p, Or.inr rfl⟩)

/-- No rule but the last applies to a spelling without reserved meaning, brackets and ends of
names. Points may stand in it. -/
theorem describe_eq_resolveName (table : TypeTable) (hempty : s ≠ "")
    (hreserved : s ∉ voidSpellings ++ primitiveSpellings) (hend : ';' ∉ s.toList)
    (hbracket : '[' ∉ s.toList) : table.describe s = table.resolveName s := by
  have hsuffix : ¬ ['[', ']'] <:+ s.toList := fun h => hbracket (h.subset List.mem_cons_self)
  rw [describe_of_not_suffix table hsuffix]
  unfold describeSimple
  split
  · next hs => exact absurd (String.toList_eq_nil_iff.mp hs) hempty
  · next c hs =>
    have hspelling : s = c.toString := by
      rw [← String.toList_inj, hs]
      simp
    split
    · next hletter => exact absurd (hspelling ▸ mem_reserved_of_ofLetter? hletter) hreserved
    · have hc : c ≠ '[' := by
        rintro rfl
        exact hbracket (hs ▸ List.mem_cons_self)
      rw [if_neg hc]
  · next hs => exact absurd (hs ▸ List.mem_cons_self) hbracket
  · have hlast : s.toList.getLast? ≠ some ';' := fun h => hend (List.mem_of_getLast? h)
    rw [if_neg hlast]
  · split
    · exact absurd (List.mem_append_left _ (by decide)) hreserved
    · next hkeyword =>
      have hs := Primitive.eq_keyword_of_ofKeyword? hkeyword
      refine absurd (List.mem_append_right _ ?_) hreserved
      exact mem_primitiveSpellings.mpr ⟨_, Or.inl hs⟩
    · rfl

/-- A spelling that starts as an array descriptor is read as one. -/
theorem describeSimple_of_array_mark (table : TypeTable) {rest : List Char}
    (hs : s.toList = '[' :: rest) : table.describeSimple s = table.parseField s := by
  unfold describeSimple
  split
  · next hnil => simp [hs] at hnil
  · next c hsingle =>
    obtain rfl : '[' = c := by simp_all
    rfl
  · rfl
  · next hclass => simp [hs] at hclass
  · next hmark _ => exact absurd hs (hmark rest)

/-- A class descriptor that can be resolved stands for the class. -/
theorem describeSimple_of_parseField {c : Char} {rest : List Char} (hs : s.toList = 'L' :: c :: rest)
    (hend : s.toList.getLast? = some ';') (h : table.parseField s = .ok t) :
    table.describeSimple s = .ok t := by
  unfold describeSimple
  split
  · next hnil => simp [hs] at hnil
  · next hsingle => simp [hs] at hsingle
  · next harray => simp [hs] at harray
  · rw [if_pos hend, h]
  · next hclass => exact absurd hs (hclass _)

/-- A name without points is an internal name. -/
theorem internalName_of_no_point (h : '.' ∉ s.toList) : internalName s = s := by
  rw [← String.toList_inj, internalName, String.toList_map]
  conv_rhs => rw [← List.map_id s.toList]
  refine List.map_congr_left fun c hc => if_neg ?_
  rintro rfl
  exact h hc

/-- The spelling of a declared type with points for slashes. -/
def dotted (name : String) : String := name.map fun c => if c = '/' then '.' else c

/-- Points and slashes stand for each other. -/
theorem internalName_dotted (h : '.' ∉ s.toList) : internalName (dotted s) = s := by
  rw [← String.toList_inj, internalName, dotted, String.toList_map, String.toList_map, List.map_map]
  conv_rhs => rw [← List.map_id s.toList]
  refine List.map_congr_left fun c hc => ?_
  have hpoint : c ≠ '.' := by
    rintro rfl
    exact h hc
  by_cases hslash : c = '/' <;> simp [hslash, hpoint]

/-- No characters but points are new in a name with points. -/
theorem notMem_dotted {c : Char} (hpoint : c ≠ '.') (h : c ∉ s.toList) :
    c ∉ (dotted s).toList := by
  rw [dotted, String.toList_map]
  intro hmem
  obtain ⟨d, hd, rfl⟩ := List.mem_map.mp hmem
  by_cases hslash : d = '/'
  · exact hpoint (if_pos hslash)
  · rw [if_neg hslash] at h
    exact h hd

/-- A reserved spelling has no points, so it is no name with points but one that had no slashes. -/
theorem LegibleName.dotted_unreserved (h : LegibleName s) :
    dotted s ∉ voidSpellings ++ primitiveSpellings := by
  intro hreserved
  have hplain : ∀ r ∈ voidSpellings ++ primitiveSpellings, '.' ∉ r.toList := by decide
  have hdotted := hplain (dotted s) hreserved
  have hsame : dotted s = s := by
    rw [← internalName_of_no_point hdotted, internalName_dotted h.no_point]
  exact h.unreserved (hsame ▸ hreserved)

/-- A legible name is looked up, and taken for nothing else. -/
theorem LegibleName.describe_eq (h : LegibleName s) (table : TypeTable) :
    table.describe s = table.resolveName s :=
  describe_eq_resolveName table h.ne_empty h.unreserved h.no_end h.no_bracket

/-- So is its dotted form. -/
theorem LegibleName.describe_dotted_eq (h : LegibleName s) (table : TypeTable) :
    table.describe (dotted s) = table.resolveName (dotted s) := by
  have hend : ';' ∉ (dotted s).toList := notMem_dotted (by decide) h.no_end
  have hbracket : '[' ∉ (dotted s).toList := notMem_dotted (by decide) h.no_bracket
  refine describe_eq_resolveName table ?_ h.dotted_unreserved hend hbracket
  intro hempty
  have hname : s = internalName "" := by rw [← hempty, internalName_dotted h.no_point]
  exact h.ne_empty (hname.trans (internalName_of_no_point (by decide)))

theorem describe_keyword (table : TypeTable) (p : Primitive) :
    table.describe p.keyword = .ok (.primitive p) := by
  cases p <;> rfl

/-- No descriptor ends like a spelling with brackets. -/
theorem getLast?_descriptor_ne : (t : TypeDesc) → t.descriptor.toList.getLast? ≠ some ']'
  | .void => by decide
  | .primitive p => by cases p <;> decide
  | .declared name modifiers superClass interfaces => by simp [List.getLast?_cons]
  | .array component => by
    have ih := getLast?_descriptor_ne component
    rw [toList_descriptor_array, List.getLast?_cons]
    cases hlast : component.descriptor.toList.getLast? with
    | none => decide
    | some c => simpa [hlast] using ih

/-- No descriptor ends in brackets. -/
theorem not_suffix_descriptor (t : TypeDesc) : ¬ ['[', ']'] <:+ t.descriptor.toList := by
  rintro ⟨front, hfront⟩
  apply getLast?_descriptor_ne t
  rw [← hfront]
  simp

/-- The internal name of an array is its descriptor. -/
theorem name_array (component : TypeDesc) :
    (array component).name = (array component).descriptor := by
  rw [TypeDesc.name, descriptor]

theorem Legible.legibleName (htable : table.Legible) {name : String} {modifiers : Modifiers}
    {superClass : Option TypeDesc} {interfaces : List TypeDesc}
    (h : table.Defines (.declared name modifiers superClass interfaces)) : LegibleName name :=
  (htable name _ h).1

/-- A type is found by its descriptor. -/
theorem Legible.describe_descriptor (htable : table.Legible) (h : table.ReturnType t) :
    table.describe t.descriptor = .ok t := by
  have hparse : table.parseField t.descriptor = .ok t :=
    htable.toSpellable.parseField_eq_ok_iff.mpr ⟨rfl, h⟩
  rcases h with rfl | h
  · rfl
  · rw [describe_of_not_suffix table (not_suffix_descriptor t)]
    cases h with
    | primitive p => cases p <;> rfl
    | @declared name modifiers superClass interfaces h =>
      have hname := htable.legibleName h
      obtain ⟨c, rest, hchars⟩ :=
        List.exists_cons_of_ne_nil (mt String.toList_eq_nil_iff.mp hname.ne_empty)
      have hdescriptor : (declared name modifiers superClass interfaces).descriptor.toList =
          'L' :: c :: (rest ++ [';']) := by
        rw [toList_descriptor_declared, hchars, List.cons_append]
      exact describeSimple_of_parseField hdescriptor (by simp [hdescriptor, List.getLast?_cons])
        hparse
    | array h =>
      rw [describeSimple_of_array_mark table (toList_descriptor_array _), hparse]

/-- A type is found by its internal name. -/
theorem Legible.describe_name (htable : table.Legible) (h : table.ReturnType t) :
    table.describe t.name = .ok t := by
  rcases h with rfl | h
  · rfl
  · cases h with
    | primitive p => exact describe_keyword table p
    | @declared name modifiers superClass interfaces h =>
      have hname := htable.legibleName h
      have hlookup : table.lookup? name = some (declared name modifiers superClass interfaces) := h
      change table.describe name = _
      rw [hname.describe_eq, resolveName, internalName_of_no_point hname.no_point, hlookup]
    | array h =>
      rw [name_array]
      exact htable.describe_descriptor (Or.inr h.array)

/-- A type is found by the text that messages show of it. -/
theorem Legible.describe_text (htable : table.Legible) (h : table.ReturnType t) :
    table.describe t.text = .ok t := by
  rcases h with rfl | h
  · rfl
  · induction h with
    | primitive p => exact describe_keyword table p
    | @declared name modifiers superClass interfaces h =>
      have hname := htable.legibleName h
      have hlookup : table.lookup? name = some (declared name modifiers superClass interfaces) := h
      change table.describe (dotted name) = _
      rw [hname.describe_dotted_eq, resolveName, internalName_dotted hname.no_point, hlookup]
    | array h ih => exact describe_brackets ih h.not_isVoid

/-- The types that can be spelled over a table: `void`, primitive types, types under a name that the
table defines, and arrays of all but `void` to any depth. A definition may have been replaced since
such a type was declared. -/
inductive Knows (table : TypeTable) : TypeDesc → Prop where
  | void : Knows table .void
  | primitive (p : Primitive) : Knows table (.primitive p)
  | declared {name : String} {modifiers : Modifiers} {superClass : Option TypeDesc}
      {interfaces : List TypeDesc} (h : (table.lookup? name).isSome = true) :
      Knows table (.declared name modifiers superClass interfaces)
  | array {component : TypeDesc} (h : Knows table component) (hvoid : component.isVoid = false) :
      Knows table (.array component)

/-- Two types with the same spellings. -/
structure SpelledAlike (t u : TypeDesc) : Prop where
  kind_eq : t.kind = u.kind
  text_eq : t.text = u.text
  name_eq : t.name = u.name
  descriptor_eq : t.descriptor = u.descriptor

namespace SpelledAlike

variable {u : TypeDesc}

theorem refl (t : TypeDesc) : SpelledAlike t t := ⟨rfl, rfl, rfl, rfl⟩

theorem array (h : SpelledAlike t u) : SpelledAlike (.array t) (.array u) where
  kind_eq := rfl
  text_eq := congrArg (· ++ "[]") h.text_eq
  name_eq := congrArg ("[" ++ ·) h.descriptor_eq
  descriptor_eq := congrArg ("[" ++ ·) h.descriptor_eq

/-- Types that are spelled alike count as the same. -/
theorem same (h : SpelledAlike t u) : t.same u = true := by
  simp [TypeDesc.same, h.kind_eq, h.name_eq]

theorem isVoid_eq (h : SpelledAlike t u) : t.isVoid = u.isVoid := by
  simp [isVoid, h.kind_eq]

end SpelledAlike

/-- Every type that a table knows is spelled like one over its present definitions. -/
theorem Knows.exists_spelledAlike (htable : table.Legible) (h : table.Knows t) :
    ∃ u, table.ReturnType u ∧ SpelledAlike u t := by
  induction h with
  | void => exact ⟨.void, Or.inl rfl, .refl _⟩
  | primitive p => exact ⟨.primitive p, Or.inr (.primitive p), .refl _⟩
  | declared h =>
    obtain ⟨u, hu⟩ := Option.isSome_iff_exists.mp h
    obtain ⟨_, modifiers, superClass, interfaces, rfl⟩ := htable _ u hu
    exact ⟨_, Or.inr (.declared hu), ⟨rfl, rfl, rfl, rfl⟩⟩
  | array _ hvoid ih =>
    obtain ⟨u, htype, halike⟩ := ih
    have hvalue : table.ValueType u := htype.valueType (halike.isVoid_eq.trans hvoid)
    exact ⟨.array u, Or.inr hvalue.array, halike.array⟩

/-- However a type is spelled that a table of legible names knows, with dots and brackets, by its
internal name or by its descriptor, it is described as the same type. -/
theorem describe_every_spelling (htable : table.Legible) (ht : table.Knows t) :
    ∃ u, table.describe t.text = .ok u ∧ table.describe t.name = .ok u ∧
      table.describe t.descriptor = .ok u ∧ u.same t = true := by
  obtain ⟨u, htype, halike⟩ := ht.exists_spelledAlike htable
  refine ⟨u, ?_, ?_, ?_, halike.same⟩
  · rw [← halike.text_eq]
    exact htable.describe_text htype
  · rw [← halike.name_eq]
    exact htable.describe_name htype
  · rw [← halike.descriptor_eq]
    exact htable.describe_descriptor htype

/-- Arrays of a class whose name starts like a class descriptor, and which has been defined anew
since. -/
theorem describe_every_spelling_redefined :
    let list := ofClass "Lib/List" .isPublic none []
    let table := (builtin.define list).define (ofInterface "Lib/List" .isPublic [])
    let t := array (array list)
    table.Legible ∧ table.Knows t ∧ t.text = "Lib.List[][]" ∧ t.descriptor = "[[LLib/List;" ∧
      ∃ u, table.describe t.text = .ok u ∧ table.describe t.name = .ok u ∧
        table.describe t.descriptor = .ok u ∧ u.same t = true := by
  intro list table t
  have hname : LegibleName "Lib/List" :=
    ⟨by decide, by decide, by decide, by decide, by decide⟩
  have htable : table.Legible := (builtin_legible.define hname).define hname
  have hlist : table.Knows list := .declared rfl
  have ht : table.Knows t := (hlist.array rfl).array rfl
  exact ⟨htable, ht, by cbv, by decide, describe_every_spelling htable ht⟩

end TypeTable

end OperandStack
