import Mathlib.Data.List.Nodup
import OperandStack.Proofs.Type.Hierarchy
import OperandStack.Type.Table

/-!
# Coherent tables of types

A table is coherent if it grows from the built-in types by declarations under fresh
names, each of which stands on types that are there already. Such a table holds a
hierarchy, and two types over it denote the same type only if they are equal.
-/

namespace OperandStack

namespace TypeDesc

theorem same_self (t : TypeDesc) : t.same t = true := by simp [same]

/-- Built-in types are declared, and above them are only built-in types. -/
theorem builtins_cases {t : TypeDesc} (ht : t ∈ builtins) :
    (∃ name modifiers superClass interfaces, t = declared name modifiers superClass interfaces) ∧
      t.parents ∈ [[], [object], [object, serializable], [number]] := by
  rcases List.mem_append.mp ht with hknown | hwrapper
  · simp only [List.mem_cons, List.not_mem_nil, or_false] at hknown
    rcases hknown with rfl | rfl | rfl | rfl | rfl | rfl | rfl <;> refine ⟨⟨_, _, _, _, rfl⟩, ?_⟩
    · exact .head _
    all_goals first | exact .tail _ (.head _) | exact .tail _ (.tail _ (.head _))
  · obtain ⟨p, _, rfl⟩ := List.mem_map.mp hwrapper
    cases p <;> refine ⟨⟨_, _, _, _, rfl⟩, ?_⟩ <;>
      first | exact .tail _ (.tail _ (.head _)) | exact .tail _ (.tail _ (.tail _ (.head _)))

/-- The built-in types refer to no types but themselves. -/
theorem builtins_isHierarchy : IsHierarchy builtins where
  declared _ ht := (builtins_cases ht).1
  parents_mem t ht u hu := by
    have hparents := (builtins_cases ht).2
    simp only [List.mem_cons, List.not_mem_nil, or_false] at hparents
    rcases hparents with h | h | h | h <;> rw [h] at hu <;>
      simp only [List.mem_cons, List.not_mem_nil, or_false] at hu
    · simp [builtins, hu]
    · rcases hu with rfl | rfl <;> simp [builtins]
    · simp [builtins, hu]
  eq_of_name t ht u hu hname := by
    have hnames : (builtins.map name).Nodup := by decide
    exact List.inj_on_of_nodup_map hnames ht hu hname

end TypeDesc

namespace TypeTable

open TypeDesc

variable {table : TypeTable}

/-- Whether a type is the one that a table has under its name. -/
def Defines (table : TypeTable) (t : TypeDesc) : Prop := table.lookup? t.name = some t

/-- Whether a name is free in a table and not spelled like that of an array. -/
def Admits (table : TypeTable) (name : String) : Prop :=
  table.lookup? name = none ∧ name.toList.head? ≠ some '['

/-- The tables that grow from the built-in types. Every class, with or without super class, and
every interface comes in under a free name, and above it are types that the table has already. -/
inductive Coherent : TypeTable → Prop where
  | builtin : Coherent builtin
  | ofClass {table : TypeTable} {name : String} {modifiers : Modifiers}
      {superClass : Option TypeDesc} {interfaces : List TypeDesc} (h : Coherent table)
      (hname : table.Admits name) (hsuper : ∀ t ∈ superClass, table.Defines t)
      (hinterfaces : ∀ t ∈ interfaces, table.Defines t) :
      Coherent (table.define (.ofClass name modifiers superClass interfaces))
  | ofInterface {table : TypeTable} {name : String} {modifiers : Modifiers}
      {interfaces : List TypeDesc} (h : Coherent table) (hname : table.Admits name)
      (hinterfaces : ∀ t ∈ interfaces, table.Defines t) :
      Coherent (table.define (.ofInterface name modifiers interfaces))

theorem mem_of_lookup? {name : String} {t : TypeDesc} (h : table.lookup? name = some t) :
    t ∈ table.types :=
  List.mem_of_find?_eq_some h

/-- A name that is admitted is new to the table. -/
theorem Admits.ne_name {name : String} (h : table.Admits name) {t : TypeDesc}
    (ht : t ∈ table.types) : t.name ≠ name := by
  have hnone := List.find?_eq_none.mp h.1 t ht
  simpa using hnone

/-- What all tables have in common that grow from the built-in types. -/
structure Sound (table : TypeTable) : Prop where
  hierarchy : IsHierarchy table.types
  /-- No name is spelled like that of an array. -/
  plain : ∀ t ∈ table.types, t.name.toList.head? ≠ some '['
  builtins_mem : ∀ t ∈ builtins, t ∈ table.types

/-- The built-in table is sound. -/
theorem builtin_sound : builtin.Sound where
  hierarchy := by
    have h := builtins_isHierarchy
    refine ⟨fun t ht => h.declared t (List.mem_reverse.mp ht), fun t ht u hu => ?_,
      fun t ht u hu => h.eq_of_name t (List.mem_reverse.mp ht) u (List.mem_reverse.mp hu)⟩
    exact List.mem_reverse.mpr (h.parents_mem t (List.mem_reverse.mp ht) u hu)
  plain t ht := by
    have hnames : ∀ s ∈ builtins.map name, s.toList.head? ≠ some '[' := by decide
    exact hnames t.name (List.mem_map_of_mem (List.mem_reverse.mp ht))
  builtins_mem _ ht := List.mem_reverse.mpr ht

/-- A declaration under a free name that stands on types of the table keeps it sound. -/
theorem Sound.define (h : table.Sound) {name : String} {modifiers : Modifiers}
    {superClass : Option TypeDesc} {interfaces : List TypeDesc} (hname : table.Admits name)
    (hsuper : ∀ t ∈ superClass, t ∈ table.types) (hinterfaces : ∀ t ∈ interfaces, t ∈ table.types) :
    (table.define (declared name modifiers superClass interfaces)).Sound where
  hierarchy := by
    refine ⟨fun t ht => ?_, fun t ht u hu => ?_, fun t ht u hu hsame => ?_⟩
    · rcases List.mem_cons.mp ht with rfl | ht
      · exact ⟨_, _, _, _, rfl⟩
      · exact h.hierarchy.declared t ht
    · refine List.mem_cons_of_mem _ ?_
      rcases List.mem_cons.mp ht with rfl | ht
      · rcases mem_parents_declared.mp hu with hu | hu
        · exact hsuper u hu
        · exact hinterfaces u hu
      · exact h.hierarchy.parents_mem t ht u hu
    · rcases List.mem_cons.mp ht with rfl | ht <;> rcases List.mem_cons.mp hu with rfl | hu
      · rfl
      · exact absurd hsame.symm (hname.ne_name hu)
      · exact absurd hsame (hname.ne_name ht)
      · exact h.hierarchy.eq_of_name t ht u hu hsame
  plain t ht := by
    rcases List.mem_cons.mp ht with rfl | ht
    · exact hname.2
    · exact h.plain t ht
  builtins_mem t ht := List.mem_cons_of_mem _ (h.builtins_mem t ht)

/-- What is defined over the built-in types, each over those before it, is sound. -/
theorem Coherent.sound (h : table.Coherent) : table.Sound := by
  induction h with
  | builtin => exact builtin_sound
  | ofClass _ hname hsuper hinterfaces ih =>
    exact ih.define hname (fun t ht => mem_of_lookup? (hsuper t ht))
      fun t ht => mem_of_lookup? (hinterfaces t ht)
  | ofInterface _ hname hinterfaces ih =>
    refine ih.define hname (fun t ht => ?_) fun t ht => mem_of_lookup? (hinterfaces t ht)
    cases ht
    exact ih.builtins_mem object (by simp [builtins])

/-- The types over a table: `void`, primitive types, the types it defines, and arrays of all of
these to any depth. -/
inductive Covers (table : TypeTable) : TypeDesc → Prop where
  | void : Covers table .void
  | primitive (p : Primitive) : Covers table (.primitive p)
  | declared {name : String} {modifiers : Modifiers} {superClass : Option TypeDesc}
      {interfaces : List TypeDesc}
      (h : table.Defines (.declared name modifiers superClass interfaces)) :
      Covers table (.declared name modifiers superClass interfaces)
  | array {component : TypeDesc} (h : Covers table component) : Covers table (.array component)

namespace Sound

variable {t u v : TypeDesc}

/-- A sound table defines what it holds: no later type hides it. -/
theorem defines_of_mem (h : table.Sound) (ht : t ∈ table.types) : table.Defines t := by
  obtain ⟨u, hu⟩ : ∃ u, table.lookup? t.name = some u :=
    Option.isSome_iff_exists.mp (List.find?_isSome.mpr ⟨t, ht, by simp⟩)
  have hname : u.name = t.name := by simpa using List.find?_some hu
  rw [Defines, hu, h.hierarchy.eq_of_name u (mem_of_lookup? hu) t ht hname]

/-- The built-in types stay defined. -/
theorem defines_builtin (h : table.Sound) (ht : t ∈ builtins) : table.Defines t :=
  h.defines_of_mem (h.builtins_mem t ht)

theorem covers_of_defines (h : table.Sound) (ht : table.Defines t) : table.Covers t := by
  obtain ⟨name, modifiers, superClass, interfaces, rfl⟩ :=
    h.hierarchy.declared t (mem_of_lookup? ht)
  exact .declared ht

/-- Defined types are told apart by their names. -/
theorem eq_of_names (h : table.Sound) (ht : table.Defines t) (hu : table.Defines u)
    (hname : t.name = u.name) : t = u :=
  h.hierarchy.eq_of_name t (mem_of_lookup? ht) u (mem_of_lookup? hu) hname

/-- Descriptors tell the types over a table apart. -/
theorem eq_of_descriptor (h : table.Sound) (ht : table.Covers t) (hu : table.Covers u)
    (heq : t.descriptor.toList = u.descriptor.toList) : t = u := by
  have hletter : ∀ p : Primitive, p.letter ≠ 'V' ∧ p.letter ≠ 'L' ∧ p.letter ≠ '[' := by
    intro p
    cases p <;> decide
  induction ht generalizing u with
  | void =>
    cases hu with
    | void => rfl
    | primitive p => simp [(hletter p).1.symm] at heq
    | declared _ => simp at heq
    | array _ => simp at heq
  | primitive p =>
    cases hu with
    | void => simp [(hletter p).1] at heq
    | primitive q =>
      have hpq : p.letter = q.letter := by simpa using heq
      have hsome := congrArg Primitive.ofLetter? hpq
      rw [Primitive.ofLetter?_letter, Primitive.ofLetter?_letter, Option.some.injEq] at hsome
      rw [hsome]
    | declared _ => simp [(hletter p).2.1] at heq
    | array _ => simp [(hletter p).2.2] at heq
  | declared ht =>
    cases hu with
    | void => simp at heq
    | primitive p => simp [(hletter p).2.1.symm] at heq
    | declared hu =>
      refine h.eq_of_names ht hu (String.toList_inj.mp ?_)
      simpa [name] using heq
    | array _ => simp at heq
  | array _ ih =>
    cases hu with
    | void => simp at heq
    | primitive p => simp [(hletter p).2.2.symm] at heq
    | declared _ => simp at heq
    | array hd =>
      have hcomponents := ih hd (by simpa using heq)
      rw [hcomponents]

/-- No defined type is named like an array. -/
theorem name_ne_array (h : table.Sound) (ht : table.Defines t) (component : TypeDesc) :
    t.name ≠ (TypeDesc.array component).name := by
  intro hname
  refine h.plain t (mem_of_lookup? ht) ?_
  rw [hname]
  simp [name]

/-- Two types over a table denote the same type only if they are equal. -/
theorem same_iff (h : table.Sound) (ht : table.Covers t) (hu : table.Covers u) :
    t.same u = true ↔ t = u := by
  constructor
  · intro hsame
    simp only [same, Bool.and_eq_true, decide_eq_true_eq] at hsame
    obtain ⟨hkind, hname⟩ := hsame
    cases ht with
    | void =>
      cases hu with
      | void => rfl
      | _ => cases hkind
    | primitive p =>
      cases hu with
      | primitive q =>
        cases hkind
        rfl
      | _ => cases hkind
    | declared ht =>
      cases hu with
      | declared hu => exact h.eq_of_names ht hu hname
      | array _ => exact absurd hname (h.name_ne_array ht _)
      | _ => cases hkind
    | array hc =>
      cases hu with
      | array hd =>
        exact h.eq_of_descriptor hc.array hd.array (congrArg String.toList hname)
      | declared hu => exact absurd hname.symm (h.name_ne_array hu _)
      | _ => cases hkind
  · rintro rfl
    exact t.same_self

end Sound

end TypeTable

end OperandStack
