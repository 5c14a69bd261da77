import OperandStack.Proofs.Type.Search

/-!
# Assignability is a partial order

Over a coherent table assignability is worked out for each pair of shapes: below a
defined type by paths, below the root for every reference, and for arrays by their
components. Transitivity and antisymmetry then follow by induction on the depth of
arrays.
-/

namespace OperandStack

namespace TypeDesc

/-- A value of the same type may always be assigned. -/
theorem isAssignableFrom_of_same {t u : TypeDesc} (h : t.same u = true) :
    t.isAssignableFrom u = true := by
  cases t <;> cases u <;> simp only [isAssignableFrom, h, Bool.true_or]

theorem not_isReference_of_isPrimitive {t : TypeDesc} (h : t.isPrimitive = true) :
    t.isReference = false := by
  cases t with
  | primitive p => rfl
  | _ => cases h

/-- Nothing is above the root. -/
theorem eq_object_of_reaches {u : TypeDesc} (h : object.Reaches u) : u = object := by
  rcases h.cases_head with rfl | ⟨v, hv, _⟩
  · rfl
  · cases hv

/-- A type directly below the root reaches itself and the root only. -/
theorem eq_or_eq_object_of_reaches {t u : TypeDesc} (hparents : t.parents = [object])
    (h : t.Reaches u) : u = t ∨ u = object := by
  rcases h.cases_head with rfl | ⟨v, hv, hrest⟩
  · exact Or.inl rfl
  · rw [hparents, List.mem_singleton] at hv
    rw [hv] at hrest
    exact Or.inr (eq_object_of_reaches hrest)

end TypeDesc

namespace TypeTable

open TypeDesc

variable {table : TypeTable}

namespace Sound

variable {t u v : TypeDesc}

/-- Without values there is nothing to assign to a type, or from it, but its own. -/
theorem isAssignableFrom_iff_of_not_reference (h : table.Sound) (ht : table.Covers t)
    (hu : table.Covers u) (hkind : t.isReference = false ∨ u.isReference = false) :
    t.isAssignableFrom u = true ↔ t = u := by
  rw [← h.same_iff ht hu]
  cases t <;> cases u <;> simp_all [isAssignableFrom, isReference, kind]

/-- Arrays vary with their components, those of primitive values not at all. -/
theorem isAssignableFrom_array_iff (h : table.Sound) (ht : table.Covers t) (hu : table.Covers u) :
    (array t).isAssignableFrom (array u) = true ↔ t.isAssignableFrom u = true := by
  have hsame : (array t).same (array u) = true ↔ t.same u = true := by
    rw [h.same_iff ht.array hu.array, h.same_iff ht hu, array.injEq]
  simp only [isAssignableFrom, Bool.or_eq_true, hsame]
  by_cases hprimitive : t.isPrimitive = true ∨ u.isPrimitive = true
  · have hkind := hprimitive.imp not_isReference_of_isPrimitive not_isReference_of_isPrimitive
    rw [if_pos hprimitive, h.isAssignableFrom_iff_of_not_reference ht hu hkind, h.same_iff ht hu,
      or_self]
  · rw [if_neg hprimitive]
    exact ⟨fun hor => hor.elim isAssignableFrom_of_same id, Or.inr⟩

/-- Among the types of the table, values may be assigned along paths, and to the root. -/
theorem isAssignableFrom_declared_iff (h : table.Sound) (ht : table.Defines t)
    (hu : table.Defines u) : t.isAssignableFrom u = true ↔ t = object ∨ u.Reaches t := by
  have hsame := fun w hw => h.same_iff (h.covers_of_defines ht) (h.covers_of_defines (t := w) hw)
  have hroot := hsame object (h.defines_builtin (by simp [builtins]))
  have habove : t.isSuperTypeOf u = true ↔ u.Reaches t := by
    rw [(h.hierarchy.oneByName (mem_of_lookup? hu)).isSuperTypeOf_iff]
    constructor
    · rintro ⟨w, hreach, hw⟩
      have hdefined := h.defines_of_mem (h.hierarchy.reaches_mem (mem_of_lookup? hu) hreach)
      rwa [(hsame w hdefined).mp hw]
    · intro hreach
      exact ⟨t, hreach, t.same_self⟩
  obtain ⟨_, _, _, _, rfl⟩ := h.hierarchy.declared t (mem_of_lookup? ht)
  obtain ⟨_, _, _, _, rfl⟩ := h.hierarchy.declared u (mem_of_lookup? hu)
  rw [isAssignableFrom_iff_isSuperTypeOf rfl rfl rfl, hroot, habove]

/-- Of the types of the table, arrays may be assigned to the three above every array. -/
theorem isAssignableFrom_from_array_iff (h : table.Sound) (ht : table.Defines t)
    (component : TypeDesc) : t.isAssignableFrom (array component) = true ↔
      t = object ∨ t = cloneable ∨ t = serializable := by
  have hbuiltin : ∀ b ∈ builtins, (t.same b = true ↔ t = b) := fun b hb =>
    h.same_iff (h.covers_of_defines ht) (h.covers_of_defines (h.defines_builtin hb))
  have hself : t.same (array component) = false := by
    simp [same, h.name_ne_array ht component]
  obtain ⟨_, _, _, _, rfl⟩ := h.hierarchy.declared t (mem_of_lookup? ht)
  simp only [isAssignableFrom, hself, isReference, kind, decide_true, Bool.false_or, Bool.true_and,
    Bool.or_eq_true]
  rw [hbuiltin object (by simp [builtins]), hbuiltin cloneable (by simp [builtins]),
    hbuiltin serializable (by simp [builtins]), or_assoc]

/-- No array takes a type that the table defines. -/
theorem not_isAssignableFrom_array_defined (h : table.Sound) (hu : table.Defines u)
    (component : TypeDesc) : (array component).isAssignableFrom u = false := by
  have hother : ∀ w, table.Defines w → (array component).same w = false := by
    intro w hw
    simp [same, (h.name_ne_array hw component).symm]
  have habove : (array component).isSuperTypeOf u = false := by
    rw [Bool.eq_false_iff, Ne, (h.hierarchy.oneByName (mem_of_lookup? hu)).isSuperTypeOf_iff]
    rintro ⟨w, hreach, hsame⟩
    rw [hother w (h.defines_of_mem (h.hierarchy.reaches_mem (mem_of_lookup? hu) hreach))] at hsame
    cases hsame
  have hroot := hother object (h.defines_builtin (by simp [builtins]))
  obtain ⟨_, _, _, _, rfl⟩ := h.hierarchy.declared u (mem_of_lookup? hu)
  rw [Bool.eq_false_iff, Ne, isAssignableFrom_iff_isSuperTypeOf rfl rfl rfl, hroot, habove]
  simp

/-- The root takes every reference. -/
theorem isAssignableFrom_object (h : table.Sound) (hu : table.Covers u)
    (hreference : u.isReference = true) : object.isAssignableFrom u = true := by
  have hobject : table.Defines object := h.defines_builtin (by simp [builtins])
  cases hu with
  | void => cases hreference
  | primitive p => cases hreference
  | declared hu => exact (h.isAssignableFrom_declared_iff hobject hu).mpr (Or.inl rfl)
  | array _ => exact (h.isAssignableFrom_from_array_iff hobject _).mpr (Or.inl rfl)

/-- Different types take each other's values only if both are references. -/
theorem eq_or_references (h : table.Sound) (ht : table.Covers t) (hu : table.Covers u)
    (htu : t.isAssignableFrom u = true) :
    t = u ∨ t.isReference = true ∧ u.isReference = true := by
  by_cases hkind : t.isReference = true ∧ u.isReference = true
  · exact Or.inr hkind
  · rw [not_and_or, Bool.not_eq_true, Bool.not_eq_true] at hkind
    exact Or.inl ((h.isAssignableFrom_iff_of_not_reference ht hu hkind).mp htu)

/-- What a type of the table takes: every reference if it is the root, what a path leads from, and
arrays if it is one of the two interfaces above every array. -/
theorem cases_of_isAssignableFrom (h : table.Sound) (ht : table.Defines t) (hu : table.Covers u)
    (htu : t.isAssignableFrom u = true) :
    t = object ∧ u.isReference = true ∨ table.Defines u ∧ u.Reaches t ∨
      (∃ component, u = array component) ∧ (t = cloneable ∨ t = serializable) := by
  rcases h.eq_or_references (h.covers_of_defines ht) hu htu with rfl | ⟨_, hreference⟩
  · exact Or.inr (Or.inl ⟨ht, .refl⟩)
  · cases hu with
    | void => cases hreference
    | primitive p => cases hreference
    | declared hu =>
      rcases (h.isAssignableFrom_declared_iff ht hu).mp htu with hroot | hpath
      · exact Or.inl ⟨hroot, hreference⟩
      · exact Or.inr (Or.inl ⟨hu, hpath⟩)
    | array _ =>
      rcases (h.isAssignableFrom_from_array_iff ht _).mp htu with hroot | hinterface
      · exact Or.inl ⟨hroot, hreference⟩
      · exact Or.inr (Or.inr ⟨⟨_, rfl⟩, hinterface⟩)

/-- An array takes nothing but arrays. -/
theorem exists_array_of_isAssignableFrom (h : table.Sound) (ht : table.Covers t)
    (hu : table.Covers u) (htu : (array t).isAssignableFrom u = true) :
    ∃ component, table.Covers component ∧ u = array component ∧
      t.isAssignableFrom component = true := by
  rcases h.eq_or_references ht.array hu htu with rfl | ⟨_, hreference⟩
  · exact ⟨t, ht, rfl, isAssignableFrom_of_same t.same_self⟩
  · cases hu with
    | void => cases hreference
    | primitive p => cases hreference
    | declared hu =>
      rw [h.not_isAssignableFrom_array_defined hu] at htu
      cases htu
    | array hc => exact ⟨_, hc, rfl, (h.isAssignableFrom_array_iff ht hc).mp htu⟩

/-- Types that are assignable to each other are equal. -/
theorem isAssignableFrom_antisymm (h : table.Sound) (ht : table.Covers t) (hu : table.Covers u)
    (htu : t.isAssignableFrom u = true) (hut : u.isAssignableFrom t = true) : t = u := by
  induction ht generalizing u with
  | void => exact (h.eq_or_references .void hu htu).resolve_right fun hkind => nomatch hkind.1
  | primitive p =>
    exact (h.eq_or_references (.primitive p) hu htu).resolve_right fun hkind => nomatch hkind.1
  | declared ht =>
    rcases h.eq_or_references (.declared ht) hu htu with heq | ⟨_, hreference⟩
    · exact heq
    · cases hu with
      | void => cases hreference
      | primitive p => cases hreference
      | array _ =>
        rw [h.not_isAssignableFrom_array_defined ht] at hut
        cases hut
      | declared hu =>
        rcases (h.isAssignableFrom_declared_iff ht hu).mp htu with hroot | hpath
        · rw [hroot] at hut ⊢
          rcases (h.isAssignableFrom_declared_iff hu (hroot ▸ ht)).mp hut with hroot' | hback
          · exact hroot'.symm
          · exact (eq_object_of_reaches hback).symm
        · rcases (h.isAssignableFrom_declared_iff hu ht).mp hut with hroot | hback
          · rw [hroot] at hpath ⊢
            exact eq_object_of_reaches hpath
          · exact reaches_antisymm hback hpath
  | array hc ih =>
    obtain ⟨component, hd, rfl, hcd⟩ := h.exists_array_of_isAssignableFrom hc hu htu
    rw [ih hd hcd ((h.isAssignableFrom_array_iff hd hc).mp hut)]

/-- Below a type of the table everything stays below it. -/
private theorem isAssignableFrom_trans_defined (h : table.Sound) (ht : table.Defines t)
    (hu : table.Covers u) (hv : table.Covers v) (htu : t.isAssignableFrom u = true)
    (huv : u.isAssignableFrom v = true) : t.isAssignableFrom v = true := by
  rcases h.cases_of_isAssignableFrom ht hu htu with ⟨rfl, hreference⟩ | ⟨hdefined, hpath⟩ |
    ⟨⟨component, rfl⟩, hinterface⟩
  · rcases h.eq_or_references hu hv huv with rfl | ⟨_, hvreference⟩
    · exact htu
    · exact h.isAssignableFrom_object hv hvreference
  · rcases h.cases_of_isAssignableFrom hdefined hv huv with ⟨rfl, hreference⟩ |
      ⟨hvdefined, hbelow⟩ | ⟨⟨component, rfl⟩, hinterface⟩
    · rw [eq_object_of_reaches hpath]
      exact h.isAssignableFrom_object hv hreference
    · exact (h.isAssignableFrom_declared_iff ht hvdefined).mpr (Or.inr (hbelow.trans hpath))
    · -- only the root is above the two interfaces
      rw [h.isAssignableFrom_from_array_iff ht]
      have hparents : u.parents = [object] := by rcases hinterface with rfl | rfl <;> rfl
      rcases eq_or_eq_object_of_reaches hparents hpath with rfl | hroot
      · exact Or.inr hinterface
      · exact Or.inl hroot
  · cases hu with
    | array hc =>
      obtain ⟨_, _, rfl, _⟩ := h.exists_array_of_isAssignableFrom hc hv huv
      exact (h.isAssignableFrom_from_array_iff ht _).mpr (Or.inr hinterface)

/-- Assignments can be chained. -/
theorem isAssignableFrom_trans (h : table.Sound) (ht : table.Covers t) (hu : table.Covers u)
    (hv : table.Covers v) (htu : t.isAssignableFrom u = true) (huv : u.isAssignableFrom v = true) :
    t.isAssignableFrom v = true := by
  induction ht generalizing u v with
  | void =>
    rcases h.eq_or_references .void hu htu with rfl | ⟨hreference, _⟩
    · exact huv
    · cases hreference
  | primitive p =>
    rcases h.eq_or_references (.primitive p) hu htu with rfl | ⟨hreference, _⟩
    · exact huv
    · cases hreference
  | declared ht => exact h.isAssignableFrom_trans_defined ht hu hv htu huv
  | array hc ih =>
    obtain ⟨d, hd, rfl, hcd⟩ := h.exists_array_of_isAssignableFrom hc hu htu
    obtain ⟨e, he, rfl, hde⟩ := h.exists_array_of_isAssignableFrom hd hv huv
    exact (h.isAssignableFrom_array_iff hc he).mpr (ih hd he hcd hde)

end Sound

/-- On every coherent table assignability is a partial order of the types over it: each type takes
its own values, what takes a type takes everything below it, and types that take each other's
values are the same. -/
theorem isAssignableFrom_partialOrder (h : table.Coherent) {t u v : TypeDesc}
    (ht : table.Covers t) (hu : table.Covers u) (hv : table.Covers v) :
    t.isAssignableFrom t = true ∧
      (t.isAssignableFrom u = true → u.isAssignableFrom v = true →
        t.isAssignableFrom v = true) ∧
      (t.isAssignableFrom u = true → u.isAssignableFrom t = true → t.same u = true) := by
  refine ⟨isAssignableFrom_of_same t.same_self, h.sound.isAssignableFrom_trans ht hu hv, ?_⟩
  intro htu hut
  exact (h.sound.same_iff ht hu).mpr (h.sound.isAssignableFrom_antisymm ht hu htu hut)

/-- An interface that may be copied, a class without super class that has it, and a class below:
arrays of the last may be assigned to arrays of what may be copied. -/
theorem isAssignableFrom_partialOrder_leaf :
    let shape := ofInterface "Shape" .isPublic [cloneable]
    let base := ofClass "Base" .isPublic none [shape]
    let leaf := ofClass "Leaf" .isPublic (some base) []
    let table := ((builtin.define shape).define base).define leaf
    table.Coherent ∧ (table.Covers (array cloneable) ∧ table.Covers (array shape) ∧
      table.Covers (array leaf)) ∧ (array cloneable).isAssignableFrom (array shape) = true ∧
      (array shape).isAssignableFrom (array leaf) = true ∧
      (array cloneable).isAssignableFrom (array leaf) = true := by
  intro shape base leaf table
  have hshape : (builtin.define shape).Coherent := by
    refine .ofInterface .builtin ⟨rfl, by decide⟩ ?_
    rw [List.forall_mem_singleton]
    exact rfl
  have hbase : ((builtin.define shape).define base).Coherent := by
    refine .ofClass hshape ⟨rfl, by decide⟩ (fun t ht => nomatch ht) ?_
    rw [List.forall_mem_singleton]
    exact rfl
  have hleaf : table.Coherent := by
    refine .ofClass hbase ⟨rfl, by decide⟩ ?_ (fun t ht => nomatch ht)
    intro t ht
    cases ht
    exact rfl
  have hc : table.Covers (array cloneable) := .array (.declared rfl)
  have hs : table.Covers (array shape) := .array (.declared rfl)
  have hl : table.Covers (array leaf) := .array (.declared rfl)
  have hupper : (array cloneable).isAssignableFrom (array shape) = true := by decide
  have hlower : (array shape).isAssignableFrom (array leaf) = true := by decide
  obtain ⟨_, htrans, _⟩ := isAssignableFrom_partialOrder hleaf hc hs hl
  exact ⟨hleaf, ⟨hc, hs, hl⟩, hupper, hlower, htrans hupper hlower⟩

end TypeTable

end OperandStack
