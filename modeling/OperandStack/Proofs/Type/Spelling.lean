import OperandStack.Proofs.Type.Coherence

/-!
# Spellings of types without references

A spelling is resolved to `void` or to a primitive type only if it is a keyword or a
descriptor letter, and these have no other meaning, whatever a table defines. All other
spellings that can be resolved stand for arrays or for what the table holds.
-/

namespace OperandStack

namespace TypeTable

open TypeDesc

/-- Whether all types of a table are reference types. -/
def AllReferences (table : TypeTable) : Prop := ∀ t ∈ table.types, t.isReference = true

end TypeTable

/-- A table of reference types. Nothing is checked when a type is added to a table, so it takes
this to say that no name of the table stands for `void` or for a primitive type. -/
structure ReferenceTable extends TypeTable where
  allReferences : toTypeTable.AllReferences

namespace ReferenceTable

open TypeDesc

/-- The table of the types that are always there. -/
def builtin : ReferenceTable where
  toTypeTable := .builtin
  allReferences t ht := by
    obtain ⟨⟨name, modifiers, superClass, interfaces, rfl⟩, _⟩ :=
      builtins_cases (List.mem_reverse.mp ht)
    rfl

/-- The table with a further reference type. -/
def define (table : ReferenceTable) (t : TypeDesc) (ht : t.isReference = true) :
    ReferenceTable where
  toTypeTable := table.toTypeTable.define t
  allReferences := List.forall_mem_cons.mpr ⟨ht, table.allReferences⟩

/-- What a name stands for is a reference type. -/
theorem lookup?_isReference (table : ReferenceTable) {name : String} {t : TypeDesc}
    (h : table.lookup? name = some t) : t.isReference = true :=
  table.allReferences t (TypeTable.mem_of_lookup? h)

end ReferenceTable

namespace TypeTable

open TypeDesc

variable {s : String} {t : TypeDesc}

/-- The spellings of `void`. -/
def voidSpellings : List String := ["void", "V"]

/-- The spellings of the primitive types. -/
def primitiveSpellings : List String :=
  Primitive.all.flatMap fun p => [p.keyword, p.letter.toString]

theorem mem_primitiveSpellings :
    s ∈ primitiveSpellings ↔ ∃ p : Primitive, s = p.keyword ∨ s = p.letter.toString := by
  simp [primitiveSpellings, Primitive.mem_all]

/-- The two spellings of `void` are understood by every table. -/
theorem describe_void (table : TypeTable) (h : s ∈ voidSpellings) :
    table.describe s = .ok .void := by
  simp only [voidSpellings, List.mem_cons, List.not_mem_nil, or_false] at h
  rcases h with rfl | rfl <;> rfl

/-- So are the keywords and letters of the primitive types. -/
theorem describe_primitive (table : TypeTable) (h : s ∈ primitiveSpellings) :
    ∃ p, table.describe s = .ok (.primitive p) := by
  obtain ⟨p, rfl | rfl⟩ := mem_primitiveSpellings.mp h <;> exact ⟨p, by cases p <;> rfl⟩

/-- A type that is a reference type, or that is spelled as one of the others is. -/
def SpelledAs (s : String) (t : TypeDesc) : Prop :=
  t.isReference = true ∨ t = .void ∧ s ∈ voidSpellings ∨
    (∃ p, t = .primitive p) ∧ s ∈ primitiveSpellings

/-- A letter spells the type it stands for. -/
theorem spelledAs_letter {c : Char} (h : ofLetter? c = some t) : SpelledAs c.toString t := by
  rcases ofLetter?_cases h with ⟨rfl, rfl⟩ | ⟨p, rfl, rfl⟩
  · exact Or.inr (Or.inl ⟨rfl, by decide⟩)
  · exact Or.inr (Or.inr ⟨⟨p, rfl⟩, mem_primitiveSpellings.mpr ⟨p, Or.inr rfl⟩⟩)

end TypeTable

namespace ReferenceTable

open TypeDesc TypeTable

variable {s : String} {t : TypeDesc}

/-- A name that is resolved is that of a reference type. -/
theorem resolveName_isReference (table : ReferenceTable) (h : table.resolveName s = .ok t) :
    t.isReference = true := by
  unfold TypeTable.resolveName at h
  split at h
  · next hlookup =>
    cases h
    exact table.lookup?_isReference hlookup
  · cases h

/-- The descriptor of an array or of a class gives a reference type. -/
theorem parseField_isReference (table : ReferenceTable) {c : Char} {rest : List Char}
    (hs : s.toList = c :: rest) (hc : c = '[' ∨ c = 'L') (h : table.parseField s = .ok t) :
    t.isReference = true := by
  obtain ⟨p, hp, hend⟩ := exists_ok_of_bind h
  have htype : p.type.isReference = true := by
    rw [hs] at hp
    rcases hc with rfl | rfl
    · obtain ⟨component, _, hp⟩ := exists_ok_of_bind hp
      split at hp
      · cases hp
      · cases hp
        rfl
    · rw [parseType] at hp
      split at hp
      · cases hp
      · split at hp
        · cases hp
        · split at hp
          · next hlookup =>
            cases hp
            exact table.lookup?_isReference hlookup
          · cases hp
  split at hend
  · cases hend
    exact htype
  · cases hend

/-- Without brackets, only reserved spellings stand for other than reference types. -/
theorem spelledAs_of_describeSimple (table : ReferenceTable)
    (h : table.describeSimple s = .ok t) : SpelledAs s t := by
  unfold TypeTable.describeSimple at h
  split at h
  · cases h
  · next c hs =>
    split at h
    · next hletter =>
      cases h
      have hspelling : s = c.toString := by
        rw [← String.toList_inj, hs]
        simp
      rw [hspelling]
      exact spelledAs_letter hletter
    · split at h
      · next hc => exact Or.inl (table.parseField_isReference hs (Or.inl hc) h)
      · exact Or.inl (table.resolveName_isReference h)
  · next hs => exact Or.inl (table.parseField_isReference hs (Or.inl rfl) h)
  · next hs =>
    split at h
    · split at h
      · next hparse =>
        cases h
        exact Or.inl (table.parseField_isReference hs (Or.inr rfl) hparse)
      · exact Or.inl (table.resolveName_isReference h)
    · exact Or.inl (table.resolveName_isReference h)
  · split at h
    · cases h
      exact Or.inr (Or.inl ⟨rfl, by decide⟩)
    · next hkeyword =>
      cases h
      have hs := Primitive.eq_keyword_of_ofKeyword? hkeyword
      exact Or.inr (Or.inr ⟨⟨_, rfl⟩, mem_primitiveSpellings.mpr ⟨_, Or.inl hs⟩⟩)
    · exact Or.inl (table.resolveName_isReference h)

/-- Every spelling that can be resolved stands for a reference type, unless it is one of the
spellings of the other types. -/
theorem spelledAs_of_describe (table : ReferenceTable) (h : table.describe s = .ok t) :
    SpelledAs s t := by
  unfold TypeTable.describe TypeTable.describeReversed at h
  split at h
  · obtain ⟨component, _, h⟩ := exists_ok_of_bind h
    split at h
    · cases h
    · cases h
      exact Or.inl rfl
  · rw [List.reverse_reverse, String.ofList_toList] at h
    exact table.spelledAs_of_describeSimple h

/-- What is resolved is a reference type unless it is spelled as one of the others. -/
theorem describe_isReference_iff (table : ReferenceTable) (h : table.describe s = .ok t) :
    t.isReference = true ↔ s ∉ voidSpellings ++ primitiveSpellings := by
  rw [List.mem_append, not_or]
  constructor
  · intro href
    refine ⟨fun hs => ?_, fun hs => ?_⟩
    · rw [describe_void table.toTypeTable hs] at h
      cases h
      cases href
    · obtain ⟨p, hp⟩ := describe_primitive table.toTypeTable hs
      rw [hp] at h
      cases h
      cases href
  · rintro ⟨hvoid, hprimitive⟩
    rcases table.spelledAs_of_describe h with href | ⟨_, hs⟩ | ⟨_, hs⟩
    · exact href
    · exact absurd hs hvoid
    · exact absurd hs hprimitive

end ReferenceTable

end OperandStack
