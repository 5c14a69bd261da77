import OperandStack.Proofs.Type.Coherence

/-!
# What a search for a super type enters

A search enters each name once, and the first type met under a name stands for all that
share it. The types entered do not depend on the wanted one. They are a selection of the
types in reach, one for each name, and the search is successful exactly if one of them is
the wanted type. Where no two types in reach share a name, this is so exactly if some path
leads to the wanted type. Where a name was defined again, the types above the later
definition may be passed over.
-/

namespace OperandStack

namespace TypeDesc

variable {wanted t u : TypeDesc} {visited : List String}

/-- How a search goes on matters only if it has missed so far. -/
theorem Search.orElse_congr {s : Search} {f g : List String → Search}
    (h : ∀ visited, s = .missed visited → f visited = g visited) : s.orElse f = s.orElse g := by
  cases s with
  | found => rfl
  | missed visited => exact h visited rfl

/-- A type that was entered without success leaves its name behind. -/
private theorem name_mem_of_enter {left : List String}
    (h : enter wanted t visited .missed = .missed left) : t.name ∈ left ∧ visited ⊆ left := by
  unfold enter at h
  split at h
  · next hold =>
    cases h
    exact ⟨hold, List.Subset.refl _⟩
  · split at h
    · cases h
    · cases h
      exact ⟨List.mem_cons_self, List.subset_cons_self _ _⟩

private theorem search_object (wanted : TypeDesc) (visited : List String) :
    search wanted visited object = enter wanted object visited .missed := rfl

/-- Once the root has been entered, nothing is left above a type that has only the root there. -/
private theorem search_below_object {name : String} {modifiers : Modifiers}
    (hroot : object.name ∈ visited) :
    search wanted visited (declared name modifiers (some object) []) =
      enter wanted (declared name modifiers (some object) []) visited .missed := by
  have hnext : enter wanted object (name :: visited) .missed = .missed (name :: visited) :=
    if_pos (List.mem_cons_of_mem name hroot)
  rw [search]
  unfold enter
  split
  · rfl
  · split
    · rfl
    · simp only [searchOption, search_object, TypeDesc.name, hnext]
      rfl

/-- A search enters a type and goes on with the types directly above it. -/
theorem search_eq (wanted : TypeDesc) (visited : List String) (t : TypeDesc) :
    search wanted visited t =
      enter wanted t visited fun visited => searchAll wanted visited t.parents := by
  cases t with
  | void => rfl
  | primitive p => rfl
  | declared name modifiers superClass interfaces => cases superClass <;> rfl
  | array component =>
    -- the root is entered first, so that the two interfaces have nothing new above them
    have hparents : (array component).parents = [object, cloneable, serializable] := rfl
    simp only [search, hparents, searchAll, search_object]
    congr 1
    funext visited
    refine Search.orElse_congr fun first hfirst => ?_
    have hroot := (name_mem_of_enter hfirst).1
    have hcloneable : search wanted first cloneable = enter wanted cloneable first .missed :=
      search_below_object hroot
    rw [hcloneable]
    refine Search.orElse_congr fun second hsecond => ?_
    have hserializable : search wanted second serializable =
        enter wanted serializable second .missed :=
      search_below_object ((name_mem_of_enter hsecond).2 hroot)
    rw [hserializable]
    cases enter wanted serializable second .missed <;> rfl

/-- A walk through types and all that is above them, from the types entered before to the types
entered in the end, the latest first. A type whose name has been entered is passed over. -/
inductive Walk : (entered agenda left : List TypeDesc) → Prop where
  | done (entered : List TypeDesc) : Walk entered [] entered
  | passOver {t : TypeDesc} {entered rest left : List TypeDesc} (hold : t.name ∈ entered.map name)
      (hrest : Walk entered rest left) : Walk entered (t :: rest) left
  | enter {t : TypeDesc} {entered middle rest left : List TypeDesc}
      (hnew : t.name ∉ entered.map name) (habove : Walk (t :: entered) t.parents middle)
      (hrest : Walk middle rest left) : Walk entered (t :: rest) left

namespace Walk

variable {entered agenda middle left : List TypeDesc}

/-- Agendas are walked one after another. -/
theorem append {more : List TypeDesc} (hfirst : Walk entered agenda middle)
    (hsecond : Walk middle more left) : Walk entered (agenda ++ more) left := by
  induction hfirst with
  | done entered => exact hsecond
  | passOver hold _ ih => exact .passOver hold (ih hsecond)
  | enter hnew habove _ _ ih => exact .enter hnew habove (ih hsecond)

/-- A walk exists for an agenda if there is one for each of its types. -/
private theorem exists_of_each (h : ∀ t ∈ agenda, ∀ entered, ∃ left, Walk entered [t] left)
    (entered : List TypeDesc) : ∃ left, Walk entered agenda left := by
  induction agenda generalizing entered with
  | nil => exact ⟨entered, .done entered⟩
  | cons t rest ih =>
    rw [List.forall_mem_cons] at h
    obtain ⟨middle, hfirst⟩ := h.1 entered
    obtain ⟨left, hrest⟩ := ih h.2 middle
    exact ⟨left, hfirst.append hrest⟩

/-- From every type there is a walk, since no type stands above itself. -/
theorem exists_from (t : TypeDesc) (entered : List TypeDesc) : ∃ left, Walk entered [t] left := by
  induction t using wellFounded_parents.induction generalizing entered with
  | h t ih =>
    by_cases hname : t.name ∈ entered.map name
    · exact ⟨entered, .passOver hname (.done entered)⟩
    · obtain ⟨left, habove⟩ := exists_of_each ih (t :: entered)
      exact ⟨left, .enter hname habove (.done left)⟩

/-- What was entered stays entered. -/
theorem subset (h : Walk entered agenda left) : entered ⊆ left := by
  induction h with
  | done entered => exact List.Subset.refl entered
  | passOver _ _ ih => exact ih
  | enter _ _ _ ihAbove ihRest =>
    intro u hu
    exact ihRest (ihAbove (List.mem_cons_of_mem _ hu))

/-- No name is entered twice. -/
theorem nodup_names (h : Walk entered agenda left) (hentered : (entered.map name).Nodup) :
    (left.map name).Nodup := by
  induction h with
  | done entered => exact hentered
  | passOver _ _ ih => exact ih hentered
  | enter hnew _ _ ihAbove ihRest => exact ihRest (ihAbove (List.nodup_cons.mpr ⟨hnew, hentered⟩))

/-- Every type on the agenda is entered, or one of its name was. -/
theorem name_mem (h : Walk entered agenda left) {t : TypeDesc} (ht : t ∈ agenda) :
    t.name ∈ left.map name := by
  induction h with
  | done entered => cases ht
  | passOver hold hrest ih =>
    rcases List.mem_cons.mp ht with rfl | ht
    · exact List.map_subset name hrest.subset hold
    · exact ih ht
  | enter _ habove hrest _ ih =>
    rcases List.mem_cons.mp ht with rfl | ht
    · exact List.mem_map_of_mem (hrest.subset (habove.subset List.mem_cons_self))
    · exact ih ht

/-- Above a type that was entered on the way, every name has been entered. -/
theorem closed (h : Walk entered agenda left) {u : TypeDesc} (hu : u ∈ left) :
    u ∈ entered ∨ ∀ v ∈ u.parents, v.name ∈ left.map name := by
  induction h with
  | done entered => exact Or.inl hu
  | passOver _ _ ih => exact ih hu
  | enter _ habove hrest ihAbove ihRest =>
    rcases ihRest hu with hmiddle | hnames
    · have hkeep := List.map_subset name hrest.subset
      rcases ihAbove hmiddle with hfirst | hnames
      · rcases List.mem_cons.mp hfirst with rfl | hbefore
        · exact Or.inr fun v hv => hkeep (habove.name_mem hv)
        · exact Or.inl hbefore
      · exact Or.inr fun v hv => hkeep (hnames v hv)
    · exact Or.inr hnames

/-- A type is entered from one of the agenda, through types that were entered. -/
theorem linked (h : Walk entered agenda left) {u : TypeDesc} (hu : u ∈ left) :
    u ∈ entered ∨ ∃ t ∈ agenda, t ∈ left ∧
      Relation.ReflTransGen (fun v w => w ∈ v.parents ∧ w ∈ left) t u := by
  induction h with
  | done entered => exact Or.inl hu
  | passOver _ _ ih =>
    rcases ih hu with hbefore | ⟨t, ht, hpath⟩
    · exact Or.inl hbefore
    · exact Or.inr ⟨t, List.mem_cons_of_mem _ ht, hpath⟩
  | @enter t entered middle rest left _ habove hrest ihAbove ihRest =>
    have ht : t ∈ left := hrest.subset (habove.subset List.mem_cons_self)
    rcases ihRest hu with hmiddle | ⟨v, hv, hpath⟩
    · rcases ihAbove hmiddle with hfirst | ⟨v, hv, hvmiddle, hpath⟩
      · rcases List.mem_cons.mp hfirst with rfl | hbefore
        · exact Or.inr ⟨u, List.mem_cons_self, ht, .refl⟩
        · exact Or.inl hbefore
      · have hpath' : Relation.ReflTransGen (fun v w => w ∈ v.parents ∧ w ∈ left) v u :=
          Relation.ReflTransGen.mono (fun _ _ hstep => ⟨hstep.1, hrest.subset hstep.2⟩) v u hpath
        exact Or.inr ⟨t, List.mem_cons_self, ht, .head ⟨hv, hrest.subset hvmiddle⟩ hpath'⟩
    · exact Or.inr ⟨v, List.mem_cons_of_mem _ hv, hpath⟩

end Walk

/-- What a search comes to that has entered some types. -/
def verdict (wanted : TypeDesc) (entered : List TypeDesc) : Search :=
  if ∃ u ∈ entered, wanted.same u = true then .found else .missed (entered.map name)

theorem verdict_of_mem {entered : List TypeDesc} (hu : u ∈ entered) (hsame : wanted.same u = true) :
    verdict wanted entered = .found :=
  if_pos ⟨u, hu, hsame⟩

/-- A search that finds nothing reports the names it has visited. -/
theorem verdict_of_none {entered : List TypeDesc} (h : ∀ u ∈ entered, wanted.same u = false) :
    verdict wanted entered = .missed (entered.map name) := by
  refine if_neg ?_
  rintro ⟨u, hu, hsame⟩
  rw [h u hu] at hsame
  cases hsame

/-- A search stops at the wanted type, and until then enters what a walk enters. -/
theorem Walk.searchAll_eq {entered agenda left : List TypeDesc} (h : Walk entered agenda left)
    (hentered : ∀ u ∈ entered, wanted.same u = false) :
    searchAll wanted (entered.map name) agenda = verdict wanted left := by
  induction h with
  | done entered => exact (verdict_of_none hentered).symm
  | passOver hold _ ih =>
    rw [searchAll, search_eq, TypeDesc.enter, if_pos hold]
    exact ih hentered
  | @enter t entered middle rest left hnew habove hrest ihAbove ihRest =>
    rw [searchAll, search_eq, TypeDesc.enter, if_neg hnew]
    by_cases hself : wanted.same t = true
    · rw [if_pos hself, verdict_of_mem (hrest.subset (habove.subset List.mem_cons_self)) hself]
      rfl
    · rw [if_neg hself]
      have hbefore : ∀ u ∈ t :: entered, wanted.same u = false :=
        List.forall_mem_cons.mpr ⟨Bool.eq_false_iff.mpr hself, hentered⟩
      have hsearch := ihAbove hbefore
      rw [List.map_cons] at hsearch
      rw [hsearch]
      by_cases hmet : ∃ u ∈ middle, wanted.same u = true
      · obtain ⟨u, hu, hsame⟩ := hmet
        rw [verdict_of_mem hu hsame, verdict_of_mem (hrest.subset hu) hsame]
        rfl
      · have hmiddle : ∀ u ∈ middle, wanted.same u = false := by
          intro u hu
          exact Bool.eq_false_iff.mpr fun hsame => hmet ⟨u, hu, hsame⟩
        rw [verdict_of_none hmiddle]
        exact ihRest hmiddle

/-- The types entered by a walk from a type decide every search from it. -/
theorem Walk.isSuperTypeOf_iff {kept : List TypeDesc} (h : Walk [] [t] kept) :
    wanted.isSuperTypeOf t = true ↔ ∃ u ∈ kept, wanted.same u = true := by
  have hsearch : searchAll wanted ([].map name) [t] = verdict wanted kept :=
    h.searchAll_eq fun _ hu => nomatch hu
  have hsingle : searchAll wanted [] [t] = search wanted [] t := by
    rw [searchAll]
    cases search wanted [] t <;> rfl
  rw [List.map_nil, hsingle] at hsearch
  rw [isSuperTypeOf, hsearch, verdict]
  split
  · next hmet => simpa [Search.isFound] using hmet
  · next hmet => simpa [Search.isFound] using hmet

/-- One type for each name that is met on the way up from a type, where the way goes on from the
types that are kept and from no others. -/
structure IsSelection (t : TypeDesc) (kept : List TypeDesc) : Prop where
  self_mem : t ∈ kept
  nodup_names : (kept.map name).Nodup
  /-- The way to a type that is kept is through types that are kept. -/
  linked : ∀ u ∈ kept, Relation.ReflTransGen (fun v w => w ∈ v.parents ∧ w ∈ kept) t u
  /-- For every name above a type that is kept, a type is kept. -/
  closed : ∀ u ∈ kept, ∀ v ∈ u.parents, v.name ∈ kept.map name

/-- The types that a walk enters are a selection. -/
theorem Walk.isSelection {kept : List TypeDesc} (h : Walk [] [t] kept) : IsSelection t kept where
  self_mem := by
    cases h with
    | passOver hold _ => cases hold
    | enter _ habove hrest => exact hrest.subset (habove.subset List.mem_cons_self)
  nodup_names := h.nodup_names List.nodup_nil
  linked u hu := by
    obtain hnone | ⟨v, hv, _, hpath⟩ := h.linked hu
    · cases hnone
    · rwa [List.mem_singleton.mp hv] at hpath
  closed u hu := (h.closed hu).resolve_left List.not_mem_nil

/-- Whether no two types in reach of a type share a name. -/
def OneByName (t : TypeDesc) : Prop :=
  ∀ u v, t.Reaches u → t.Reaches v → u.name = v.name → u = v

/-- In a hierarchy every name stands for one type. -/
theorem IsHierarchy.oneByName {types : List TypeDesc} (h : IsHierarchy types) (ht : t ∈ types) :
    t.OneByName := by
  intro u v hu hv hname
  exact h.eq_of_name u (h.reaches_mem ht hu) v (h.reaches_mem ht hv) hname

namespace IsSelection

variable {kept : List TypeDesc}

/-- Only types in reach are kept. -/
theorem reaches (h : IsSelection t kept) (hu : u ∈ kept) : t.Reaches u :=
  Relation.ReflTransGen.mono (fun _ _ hstep => hstep.1) t u (h.linked u hu)

/-- If no two types in reach share a name, all of them are kept. -/
theorem mem_of_reaches (h : IsSelection t kept) (hnames : t.OneByName) (hu : t.Reaches u) :
    u ∈ kept := by
  induction hu with
  | refl => exact h.self_mem
  | @tail v w hv hw ih =>
    obtain ⟨x, hx, hname⟩ := List.mem_map.mp (h.closed v ih w hw)
    have heq : x = w := hnames x w (h.reaches hx) (hv.tail hw) hname
    rwa [heq] at hx

end IsSelection

/-- Whatever names are shared, what a search has found is at the end of a path. -/
theorem exists_reaches_of_isSuperTypeOf (h : wanted.isSuperTypeOf t = true) :
    ∃ u, t.Reaches u ∧ wanted.same u = true := by
  obtain ⟨kept, hwalk⟩ := Walk.exists_from t []
  obtain ⟨u, hu, hsame⟩ := hwalk.isSuperTypeOf_iff.mp h
  exact ⟨u, hwalk.isSelection.reaches hu, hsame⟩

/-- If no two types in reach share a name, the search meets the wanted type exactly if some path
leads there. -/
theorem OneByName.isSuperTypeOf_iff (hnames : t.OneByName) :
    wanted.isSuperTypeOf t = true ↔ ∃ u, t.Reaches u ∧ wanted.same u = true := by
  refine ⟨exists_reaches_of_isSuperTypeOf, ?_⟩
  rintro ⟨u, hreach, hsame⟩
  obtain ⟨kept, hwalk⟩ := Walk.exists_from t []
  have hu : u ∈ kept := hwalk.isSelection.mem_of_reaches hnames hreach
  exact hwalk.isSuperTypeOf_iff.mpr ⟨u, hu, hsame⟩

/-- A reference that is no array may be assigned to the root and to what the search finds. -/
theorem isAssignableFrom_iff_isSuperTypeOf (hwanted : wanted.isReference = true)
    (ht : t.isReference = true) (harray : t.isArray = false) :
    wanted.isAssignableFrom t = true ↔
      wanted.same object = true ∨ wanted.isSuperTypeOf t = true := by
  have hself : wanted.same t = true → wanted.isSuperTypeOf t = true := by
    intro hsame
    rw [isSuperTypeOf, search_eq, enter, if_neg List.not_mem_nil, if_pos hsame]
    rfl
  have hcases : wanted.isAssignableFrom t = (wanted.same t || (wanted.isReference &&
      t.isReference && (wanted.same object || wanted.isSuperTypeOf t))) := by
    cases t with
    | array component => cases harray
    | _ => cases wanted <;> rfl
  rw [hcases, hwanted, ht]
  simp only [Bool.or_eq_true, Bool.and_self, Bool.true_and]
  constructor
  · rintro (hsame | hor)
    · exact Or.inr (hself hsame)
    · exact hor
  · exact Or.inr

open TypeTable in
/-- A class whose super class implements an interface in its first definition, and which implements
it itself in a later one: the path over the later definition is passed over, as the name has been
entered before. -/
theorem isSuperTypeOf_passes_over_redefined :
    let sorted := ofInterface "Sorted" .isPublic []
    let shape := ofInterface "Shape" .isPublic []
    let base := ofClass "Base" .isPublic (some object) [shape]
    let sortedShape := ofInterface "Shape" .isPublic [sorted]
    let leaf := ofClass "Leaf" .isPublic (some base) [sortedShape]
    let first := ((builtin.define sorted).define shape).define base
    let second := first.define sortedShape
    (first.Defines shape ∧ second.Defines base ∧ second.Defines sortedShape) ∧
      sorted.isReference = true ∧ leaf.isReference = true ∧ leaf.isArray = false ∧
      (leaf.Reaches sorted ∧ sorted.same sorted = true) ∧
      sorted.isSuperTypeOf leaf = false ∧ sorted.isAssignableFrom leaf = false := by
  intro sorted shape base sortedShape leaf first second
  have hshape : sortedShape ∈ leaf.parents := .tail _ (.head _)
  have hsorted : sorted ∈ sortedShape.parents := .tail _ (.head _)
  have hpath : leaf.Reaches sorted := (Relation.ReflTransGen.single hshape).tail hsorted
  exact ⟨⟨rfl, rfl, rfl⟩, rfl, rfl, rfl, ⟨hpath, same_self _⟩, by decide, by decide⟩

/-- For every reference type that is no array, whatever names were defined again above it, one type
stands for each name: the first that a walk upwards meets. The search meets a wanted reference type
exactly if one of these is the wanted one, and then a path leads there. Values may be assigned to
the root and to what the search meets. If no two types in reach share a name, the search meets the
wanted type exactly if some path leads there, and values may be assigned to the root and along
paths. -/
theorem isSuperTypeOf_iff_selected (ht : t.isReference = true) (harray : t.isArray = false) :
    ∃ kept, Walk [] [t] kept ∧ IsSelection t kept ∧
      ∀ wanted : TypeDesc, wanted.isReference = true →
        (wanted.isSuperTypeOf t = true ↔ ∃ u ∈ kept, wanted.same u = true) ∧
        (wanted.isSuperTypeOf t = true → ∃ u, t.Reaches u ∧ wanted.same u = true) ∧
        (wanted.isAssignableFrom t = true ↔
          wanted.same object = true ∨ wanted.isSuperTypeOf t = true) ∧
        (t.OneByName →
          (wanted.isSuperTypeOf t = true ↔ ∃ u, t.Reaches u ∧ wanted.same u = true) ∧
          (wanted.isAssignableFrom t = true ↔
            wanted.same object = true ∨ ∃ u, t.Reaches u ∧ wanted.same u = true)) := by
  obtain ⟨kept, hwalk⟩ := Walk.exists_from t []
  refine ⟨kept, hwalk, hwalk.isSelection, fun wanted hwanted => ?_⟩
  have hassign := isAssignableFrom_iff_isSuperTypeOf hwanted ht harray
  refine ⟨hwalk.isSuperTypeOf_iff, exists_reaches_of_isSuperTypeOf, hassign, fun hnames => ?_⟩
  have hsearch : wanted.isSuperTypeOf t = true ↔ ∃ u, t.Reaches u ∧ wanted.same u = true :=
    hnames.isSuperTypeOf_iff
  exact ⟨hsearch, by rw [hassign, hsearch]⟩

/-- The wrapper of ints reaches what may be stored through the super class of the numeric wrappers.
Built-in types do not share names. -/
theorem isSuperTypeOf_iff_selected_integer :
    (wrapper .int).isReference = true ∧ (wrapper .int).isArray = false ∧
      (wrapper .int).OneByName ∧ serializable.isReference = true ∧
      serializable.isAssignableFrom (wrapper .int) = true ∧
      ∃ kept, IsSelection (wrapper .int) kept ∧ ∃ u ∈ kept, serializable.same u = true := by
  have hnames : (wrapper .int).OneByName :=
    builtins_isHierarchy.oneByName (by simp [builtins, Primitive.all])
  have hnumber : number ∈ (wrapper .int).parents := .head _
  have hserializable : serializable ∈ number.parents := .tail _ (.head _)
  have hpath : (wrapper .int).Reaches serializable :=
    (Relation.ReflTransGen.single hnumber).tail hserializable
  obtain ⟨kept, _, hselection, hall⟩ := isSuperTypeOf_iff_selected (t := wrapper .int) rfl rfl
  obtain ⟨hkept, _, _, hone⟩ := hall serializable rfl
  obtain ⟨hsearch, hassign⟩ := hone hnames
  have hmet : ∃ u, (wrapper .int).Reaches u ∧ serializable.same u = true :=
    ⟨serializable, hpath, same_self _⟩
  exact ⟨rfl, rfl, hnames, rfl, hassign.mpr (Or.inr hmet), kept, hselection,
    hkept.mp (hsearch.mpr hmet)⟩

end TypeDesc

end OperandStack
