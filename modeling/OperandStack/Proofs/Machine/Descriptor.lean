import OperandStack.Manipulation.Atom

/-!
# The sorts that descriptors ask for

A descriptor is read character by character, without any table of types, for the
sorts of values it names: those of the parameters in order and that of the result.
The descriptors of described types and methods read as the sorts of these types,
as long as no class name holds the character that ends it.
-/

namespace OperandStack

namespace TypeDesc

/-- The sort of the values of a type; `void` has none. -/
def sort? (t : TypeDesc) : Option Computational := t.kind.computational?

/-- Whether no class name in a descriptor holds the character that ends the name. -/
def PlainName : TypeDesc → Prop
  | declared name .. => ';' ∉ name.toList
  | array component => component.PlainName
  | _ => True

/-- A type whose values have a sort, and a descriptor that can be read. -/
def IsValue (t : TypeDesc) : Prop := t.isVoid = false ∧ t.PlainName

/-- Only `void` has no sort. -/
theorem sort?_eq_none_iff (t : TypeDesc) : t.sort? = none ↔ t.isVoid = true := by
  cases t with
  | primitive p => cases p <;> simp [sort?, isVoid, kind, Kind.computational?]
  | _ => simp [sort?, isVoid, kind, Kind.computational?]

/-- All types but `void` have values. -/
theorem exists_sort_of_not_void {t : TypeDesc} (h : t.isVoid = false) :
    ∃ c, t.sort? = some c := by
  cases hs : t.sort? with
  | none =>
    rw [(sort?_eq_none_iff t).mp hs] at h
    cases h
  | some c => exact ⟨c, rfl⟩

/-- A value takes as many slots as its sort. -/
theorem size_of_sort? {t : TypeDesc} {c : Computational} (h : t.sort? = some c) :
    t.size = c.size := by
  cases t with
  | primitive p =>
    cases p <;> simp only [sort?, kind, Kind.computational?, Option.some.injEq] at h <;>
      subst h <;> rfl
  | void => cases h
  | declared name modifiers superClass interfaces => cases h; rfl
  | array component => cases h; rfl

/-- A type without values takes no slots. -/
theorem size_of_void {t : TypeDesc} (h : t.sort? = none) : t.size = .zero := by
  have hvoid := (sort?_eq_none_iff t).mp h
  simp only [isVoid, decide_eq_true_eq] at hvoid
  rw [size, hvoid]
  rfl

end TypeDesc

namespace Descriptor

/-- The sort that a letter of a descriptor stands for; `V` stands for no value. -/
def letterSort? : Char → Option (Option Computational)
  | 'V' => some none
  | 'Z' => some (some .int)
  | 'B' => some (some .int)
  | 'S' => some (some .int)
  | 'C' => some (some .int)
  | 'I' => some (some .int)
  | 'J' => some (some .long)
  | 'F' => some (some .float)
  | 'D' => some (some .double)
  | _ => none

/-- Reads one type from the front of a text, and gives the text behind it. -/
def readSort? : List Char → Option (Option Computational × List Char)
  | [] => none
  | c :: rest =>
    if c = '[' then (readSort? rest).map fun (_, after) => (some .reference, after)
    else if c = 'L' then
      match rest.dropWhile (· ≠ ';') with
      | [] => none
      | _ :: after => some (some .reference, after)
    else (letterSort? c).map (·, rest)

/-- Reading a type uses up some of the text. -/
theorem readSort?_length {cs after : List Char} {s : Option Computational}
    (h : readSort? cs = some (s, after)) : after.length < cs.length := by
  induction cs generalizing s after with
  | nil => cases h
  | cons c rest ih =>
    rw [readSort?] at h
    split at h
    · obtain ⟨⟨s', after'⟩, hrest, heq⟩ := Option.map_eq_some_iff.mp h
      cases heq
      exact Nat.lt_succ_of_lt (ih hrest)
    · split at h
      · split at h
        · cases h
        · next hdrop =>
          cases h
          have hle := (List.dropWhile_sublist (l := rest) (fun c => decide (c ≠ ';'))).length_le
          rw [hdrop] at hle
          exact Nat.lt_succ_of_lt hle
      · obtain ⟨s', _, heq⟩ := Option.map_eq_some_iff.mp h
        cases heq
        exact Nat.lt_succ_self _

/-- Reads parameters up to the closing parenthesis, and gives the text behind it. A parameter has a
sort. -/
def readParameters? (cs : List Char) : Option (List Computational × List Char) :=
  if cs.head? = some ')' then some ([], cs.tail)
  else
    match _h : readSort? cs with
    | some (some c, after) =>
      (readParameters? after).map fun (sorts, behind) => (c :: sorts, behind)
    | _ => none
termination_by cs.length
decreasing_by exact readSort?_length _h

/-- The sort of the values of a field descriptor. -/
def fieldSort? (descriptor : String) : Option Computational :=
  match readSort? descriptor.toList with
  | some (some c, []) => some c
  | _ => none

/-- The sorts of the parameters of a method descriptor, and of its result. -/
def methodSorts? (descriptor : String) : Option (List Computational × Option Computational) :=
  match descriptor.toList with
  | '(' :: rest =>
    match readParameters? rest with
    | some (sorts, behind) =>
      match readSort? behind with
      | some (result, []) => some (sorts, result)
      | _ => none
    | none => none
  | _ => none

/-- A class name ends at the first semicolon. -/
private theorem dropWhile_name {name : List Char} (h : ';' ∉ name) (rest : List Char) :
    (name ++ ';' :: rest).dropWhile (· ≠ ';') = ';' :: rest := by
  rw [List.dropWhile_append_of_pos]
  · simp
  · intro c hc
    simp only [decide_eq_true_eq]
    rintro rfl
    exact h hc

/-- The descriptor of a type reads as the sort of its values, whatever follows. -/
theorem readSort?_descriptor : (t : TypeDesc) → t.PlainName → (rest : List Char) →
    readSort? (t.descriptor.toList ++ rest) = some (t.sort?, rest)
  | .void, _, rest => rfl
  | .primitive p, _, rest => by cases p <;> rfl
  | .declared name modifiers superClass interfaces, h, rest => by
    have hchars :
        (TypeDesc.declared name modifiers superClass interfaces).descriptor.toList ++ rest =
          'L' :: (name.toList ++ ';' :: rest) := by
      simp [TypeDesc.descriptor]
    rw [hchars, readSort?, if_neg (by decide), if_pos rfl, dropWhile_name h]
    rfl
  | .array component, h, rest => by
    have hchars : (TypeDesc.array component).descriptor.toList ++ rest =
        '[' :: (component.descriptor.toList ++ rest) := by
      simp [TypeDesc.descriptor]
    rw [hchars, readSort?, if_pos rfl, readSort?_descriptor component h rest]
    rfl

/-- Reading parameters goes on behind the first. -/
private theorem readParameters?_of_readSort? {cs after : List Char} {c : Computational}
    (hhead : cs.head? ≠ some ')') (hread : readSort? cs = some (some c, after)) :
    readParameters? cs =
      (readParameters? after).map fun (sorts, behind) => (c :: sorts, behind) := by
  rw [readParameters?, if_neg hhead]
  split
  · next hsome =>
    rw [hread] at hsome
    cases hsome
    rfl
  · next hnone => exact absurd hread (hnone _ _)

/-- The descriptors of parameters read as the sorts of their values, up to the parenthesis. -/
theorem readParameters?_descriptors {types : List TypeDesc} (h : ∀ t ∈ types, t.IsValue)
    (rest : List Char) :
    readParameters? ((types.flatMap fun t => t.descriptor.toList) ++ ')' :: rest) =
      some (types.filterMap TypeDesc.sort?, rest) := by
  induction types with
  | nil => simp [readParameters?]
  | cons t types ih =>
    obtain ⟨hvoid, hplain⟩ := h t List.mem_cons_self
    obtain ⟨c, hc⟩ := TypeDesc.exists_sort_of_not_void hvoid
    have hread := readSort?_descriptor t hplain
      ((types.flatMap fun t => t.descriptor.toList) ++ ')' :: rest)
    rw [hc] at hread
    rw [List.flatMap_cons, List.append_assoc,
      readParameters?_of_readSort? (t.head?_descriptor_ne _) hread,
      ih fun u hu => h u (List.mem_cons_of_mem _ hu), Option.map_some,
      List.filterMap_cons_some hc]

/-- The descriptor of a field type reads as the sort of its values. -/
theorem fieldSort?_descriptor {t : TypeDesc} (h : t.IsValue) :
    fieldSort? t.descriptor = t.sort? := by
  obtain ⟨c, hc⟩ := TypeDesc.exists_sort_of_not_void h.1
  have hread := readSort?_descriptor t h.2 []
  rw [List.append_nil, hc] at hread
  rw [fieldSort?, hread, hc]

end Descriptor

/-- A method whose descriptor can be read: every parameter has values, and no class name holds the
character that ends it. -/
def Method.Regular (m : Method) : Prop :=
  (∀ t ∈ m.parameters, t.IsValue) ∧ m.returns.PlainName

/-- The descriptor of a method reads as the sorts of its parameters and of its result. -/
theorem Descriptor.methodSorts?_descriptor {m : Method} (h : m.Regular) :
    methodSorts? m.descriptor = some (m.parameters.filterMap TypeDesc.sort?, m.returns.sort?) := by
  have hchars := Method.toList_descriptorText m.parameters m.returns
  have hreturns := readSort?_descriptor m.returns h.2 []
  rw [List.append_nil] at hreturns
  simp only [methodSorts?, Method.descriptor, hchars, readParameters?_descriptors h.1, hreturns]

end OperandStack
