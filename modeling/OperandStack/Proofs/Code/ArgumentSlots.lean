import OperandStack.Code.Encoding
import OperandStack.Proofs.Machine.Descriptor
import OperandStack.Proofs.Type.Grammar
import OperandStack.Proofs.Type.Spelling

/-!
# Slots counted from descriptors

The slots of the arguments of a call are counted by a scan over the characters of a method
descriptor. The descriptor of a parameter takes the scan from one place between parameters to
the next and adds the slots of the parameter, so the whole scan ends with the slots of all.

A parser that resolves the descriptor against a table goes through the same text on its own
terms. The two keep in step: behind each type that the parser has read, the scan stands
between parameters at the same offset. So what the parser accepts is counted, and counted
as the types it resolves to.
-/

namespace OperandStack

open TypeTable (Parsed ParsedParameters Signature byteLength)

/-- A value of a reference type takes one slot. -/
theorem TypeDesc.slots_of_isReference {t : TypeDesc} (h : t.isReference = true) :
    t.size.slots.toNat = 1 := by
  have hkind : t.kind = .reference := of_decide_eq_true h
  rw [size, hkind]
  rfl

section

variable (whole : String)

/-- A name is passed over up to the character that ends it, and counts once. -/
theorem scanParameters_name {name : List Char} (h : ';' ∉ name) (i n : Nat) (rest : List Char) :
    scanParameters whole .inName i n (name ++ ';' :: rest) =
      scanParameters whole .between (i + byteLength name + 1) (n + 1) rest := by
  induction name generalizing i with
  | nil =>
    rw [List.nil_append, scanParameters, if_pos rfl]
    rfl
  | cons c name ih =>
    rw [List.mem_cons, not_or] at h
    have hlength : byteLength (c :: name) = c.utf8Size + byteLength name := rfl
    rw [List.cons_append, scanParameters, if_neg (Ne.symm h.1), ih h.2, hlength, Nat.add_assoc i]

/-- Behind the bracket of an array any component counts once, arrays of arrays included. -/
theorem scanParameters_component : (t : TypeDesc) → t.PlainName → (i n : Nat) →
    (rest : List Char) → ∃ j, scanParameters whole .inArray i n (t.descriptor.toList ++ rest) =
      scanParameters whole .between j (n + 1) rest
  | .void, _, i, n, rest => ⟨i + 1, rfl⟩
  | .primitive p, _, i, n, rest => ⟨i + 1, by cases p <;> rfl⟩
  | .declared name modifiers superClass interfaces, h, i, n, rest => by
    refine ⟨i + 1 + byteLength name.toList + 1, ?_⟩
    rw [TypeDesc.toList_descriptor_declared, List.cons_append, List.append_assoc,
      List.singleton_append, scanParameters, if_neg (by decide), if_pos rfl,
      scanParameters_name whole h]
  | .array component, h, i, n, rest => by
    obtain ⟨j, hj⟩ := scanParameters_component component h (i + 1) n rest
    refine ⟨j, ?_⟩
    rw [TypeDesc.toList_descriptor_array, List.cons_append, scanParameters, if_pos rfl, hj]

/-- A parameter counts with its slots. -/
theorem scanParameters_descriptor {t : TypeDesc} (h : t.IsValue) (i n : Nat) (rest : List Char) :
    ∃ j, scanParameters whole .between i n (t.descriptor.toList ++ rest) =
      scanParameters whole .between j (n + t.size.slots.toNat) rest := by
  cases t with
  | void => cases h.1
  | primitive p => exact ⟨i + 1, by cases p <;> rfl⟩
  | declared name modifiers superClass interfaces =>
    refine ⟨i + 1 + byteLength name.toList + 1, ?_⟩
    rw [TypeDesc.toList_descriptor_declared, List.cons_append, List.append_assoc,
      List.singleton_append, scanParameters, if_neg (by decide), if_neg (by decide), if_pos rfl,
      scanParameters_name whole h.2]
    rfl
  | array component =>
    obtain ⟨j, hj⟩ := scanParameters_component whole component h.2 (i + 1) n rest
    refine ⟨j, ?_⟩
    rw [TypeDesc.toList_descriptor_array, List.cons_append, scanParameters, if_neg (by decide),
      if_neg (by decide), if_neg (by decide), if_pos rfl, hj]
    rfl

/-- The scan over all parameters ends at the closing parenthesis with the slots of all. -/
theorem scanParameters_descriptors {types : List TypeDesc} (h : ∀ t ∈ types, t.IsValue)
    (i n : Nat) (rest : List Char) :
    scanParameters whole .between i n
        ((types.flatMap fun t => t.descriptor.toList) ++ ')' :: rest) =
      .ok (n + Method.slotsOf types) := by
  induction types generalizing i n with
  | nil => rfl
  | cons t types ih =>
    rw [List.forall_mem_cons] at h
    obtain ⟨j, hj⟩ := scanParameters_descriptor whole h.1 i n
      ((types.flatMap fun t => t.descriptor.toList) ++ ')' :: rest)
    rw [List.flatMap_cons, List.append_assoc, hj, ih h.2, Nat.add_assoc]
    rfl

end

/-- The slots counted from the descriptor of a method are those of its parameters. -/
theorem argumentSlots_descriptor {m : Method} (h : ∀ t ∈ m.parameters, t.IsValue) :
    argumentSlots m.descriptor = .ok m.parameterSlots := by
  have hchars := Method.toList_descriptorText m.parameters m.returns
  simp only [argumentSlots, Method.descriptor, hchars, scanParameters_descriptors _ h,
    Nat.zero_add]
  rfl

section

variable {table : TypeTable} {whole : String} {i : Nat} {cs rest : List Char}

/-- A name is passed over up to where the parser cuts it off. -/
theorem scanParameters_of_dropWhile {c : Char} {after : List Char}
    (h : rest.dropWhile (· ≠ ';') = c :: after) (n : Nat) :
    scanParameters whole .inName (i + 1) n rest =
      scanParameters whole .between (i + byteLength (rest.takeWhile (· ≠ ';')) + 2) (n + 1)
        after := by
  have hoffset : i + 1 + byteLength (rest.takeWhile (· ≠ ';')) + 1 =
      i + byteLength (rest.takeWhile (· ≠ ';')) + 2 := by omega
  conv_lhs => rw [TypeTable.eq_append_of_dropWhile h]
  rw [scanParameters_name whole (TypeTable.notMem_takeWhile_ne ';' rest), hoffset]

/-- Behind the bracket of an array the scan passes over the type that the parser reads there. -/
theorem scanParameters_of_component {p : Parsed} (h : table.parseType whole i cs = .ok p)
    (n : Nat) :
    scanParameters whole .inArray i n cs =
      scanParameters whole .between p.offset (n + 1) p.rest := by
  -- Only a further bracket keeps the scan where it is, so the induction is on the depth.
  fun_induction TypeTable.parseType table whole i cs generalizing p with
  | case1 => cases h
  | case2 i rest ih =>
    obtain ⟨component, hcomponent, hp⟩ := exists_ok_of_bind h
    split at hp
    · cases hp
    · cases hp
      rw [scanParameters, if_pos rfl, ih hcomponent]
  | case3 => cases h
  | case4 => cases h
  | case5 i rest name c after hdrop =>
    cases h
    rw [scanParameters, if_neg (by decide), if_pos rfl, scanParameters_of_dropWhile hdrop]
  | case6 => cases h
  | case7 i c rest hbracket hname t hletter =>
    cases h
    have hbyte : c.utf8Size = 1 := by
      rcases TypeTable.ofLetter?_cases hletter with ⟨rfl, _⟩ | ⟨p, rfl, _⟩
      · rfl
      · cases p <;> rfl
    rw [scanParameters, if_neg hbracket, if_neg hname, if_pos hbyte]
  | case8 => cases h

/-- A parameter that the parser reads takes the scan to the same place behind it, and counts with
the slots of its type. -/
theorem scanParameters_of_parseType (table : ReferenceTable) {p : Parsed}
    (h : table.parseType whole i cs = .ok p) (hvoid : p.type.isVoid = false) (n : Nat) :
    scanParameters whole .between i n cs =
      scanParameters whole .between p.offset (n + p.type.size.slots.toNat) p.rest := by
  fun_induction TypeTable.parseType table.toTypeTable whole i cs generalizing p with
  | case1 => cases h
  | case2 i rest _ =>
    obtain ⟨component, hcomponent, hp⟩ := exists_ok_of_bind h
    split at hp
    · cases hp
    · cases hp
      rw [scanParameters, if_neg (by decide), if_neg (by decide), if_neg (by decide), if_pos rfl,
        scanParameters_of_component hcomponent]
      rfl
  | case3 => cases h
  | case4 => cases h
  | case5 i rest name c after hdrop _ t =>
    next hlookup =>
    cases h
    have hreference := table.lookup?_isReference hlookup
    rw [scanParameters, if_neg (by decide), if_neg (by decide), if_pos rfl,
      scanParameters_of_dropWhile hdrop, TypeDesc.slots_of_isReference hreference]
  | case6 => cases h
  | case7 i c rest _ _ t hletter =>
    cases h
    rcases TypeTable.ofLetter?_cases hletter with ⟨rfl, rfl⟩ | ⟨p, rfl, rfl⟩
    · cases hvoid
    · cases p <;> rfl
  | case8 => cases h

/-- The scan over parameters that the parser reads ends with their slots. -/
theorem scanParameters_of_parseParameters (table : ReferenceTable) {p : ParsedParameters}
    (h : table.parseParameters whole i cs = .ok p) (n : Nat) :
    scanParameters whole .between i n cs = .ok (n + Method.slotsOf p.types) := by
  fun_induction TypeTable.parseParameters table.toTypeTable whole i cs generalizing p n with
  | case1 => cases h
  | case2 i rest =>
    cases h
    rw [scanParameters, if_pos rfl]
    rfl
  | case3 => cases h
  | case4 => cases h
  | case5 => cases h
  | case6 i c rest _ first hfirst hvoid _ more _ ih =>
    next hmore =>
    cases h
    rw [scanParameters_of_parseType table hfirst (Bool.eq_false_iff.mpr hvoid), ih hmore,
      Nat.add_assoc]
    rfl

end

/-- What the parser accepts as a method descriptor is counted as the parameters it resolves to. -/
theorem argumentSlots_of_parseMethod (table : ReferenceTable)
    {descriptor : String} {s : Signature} (h : table.parseMethod descriptor = .ok s) :
    argumentSlots descriptor = .ok (Method.slotsOf s.parameters) := by
  unfold TypeTable.parseMethod at h
  split at h
  · next rest hopen =>
    obtain ⟨parameters, hparameters, h⟩ := exists_ok_of_bind h
    obtain ⟨returned, _, h⟩ := exists_ok_of_bind h
    split at h
    · cases h
      rw [argumentSlots, hopen]
      simp only [scanParameters_of_parseParameters table hparameters, Nat.zero_add]
    · cases h
  · cases h

/-- The scan agrees with the parser and with the methods. Over every table of reference types, a
descriptor that the parser accepts is counted, and the count is the slots of the parameters it
resolves to. The descriptor of a method is counted as its parameters, whether a table knows their
types or not.

Tables are meant for reference types, and hold nothing else as long as classes, interfaces and
arrays are added to them; all that recipes add is of this kind. It is not checked, though. A table
that was given `long` under its own name resolves that name in a class descriptor to a type of two
slots, where the scan counts one. -/
theorem argumentSlots_exact :
    (∀ table : TypeTable, table.AllReferences → ∀ (descriptor : String) (s : Signature),
      table.parseMethod descriptor = .ok s →
        argumentSlots descriptor = .ok (Method.slotsOf s.parameters)) ∧
    ∀ m : Method, (∀ t ∈ m.parameters, t.IsValue) →
      argumentSlots m.descriptor = .ok m.parameterSlots := by
  constructor
  · intro table htable descriptor s h
    exact argumentSlots_of_parseMethod ⟨table, htable⟩ h
  · intro m hm
    exact argumentSlots_descriptor hm

/-- Arrays of arrays, a wide parameter and a name with characters of several bytes; and a method of
which the table does not know the second type. -/
theorem argumentSlots_exact_arrays :
    let size := TypeDesc.ofClass "pkg/Größe" .isPublic none []
    let table := TypeTable.builtin.define size
    let text := "([[Lpkg/Größe;JLjava/lang/String;[D)V"
    let m : Method := ⟨size, "scale", .isPublic, size,
      [.primitive .double, .ofClass "absent/Unit" .isPublic none [], .array (.array .void)]⟩
    table.AllReferences ∧
      table.parseMethod text = .ok ⟨.void, [.array (.array size), .primitive .long, .string,
        .array (.primitive .double)]⟩ ∧
      argumentSlots text = .ok 5 ∧
      (∀ t ∈ m.parameters, t.IsValue) ∧ argumentSlots m.descriptor = .ok 4 := by
  intro size table text m
  have htable : table.AllReferences := (ReferenceTable.builtin.define size rfl).allReferences
  let spellable : SpellableTable :=
    .define .builtin "pkg/Größe" .isPublic none [] (by decide) (by decide)
  have hparsed : table.parseMethod text = .ok ⟨.void, [.array (.array size), .primitive .long,
      .string, .array (.primitive .double)]⟩ := by
    have hsize : table.ValueType size := .declared rfl
    have hstring : table.ValueType .string := .declared rfl
    refine spellable.parseMethod_eq_ok_iff.mpr ⟨by decide, ?_, Or.inl rfl⟩
    simp only [List.forall_mem_cons]
    exact ⟨hsize.array.array, .primitive .long, hstring, .array (.primitive .double), by simp⟩
  have hvalues : ∀ t ∈ m.parameters, t.IsValue := by
    have hplain : ';' ∉ "absent/Unit".toList := by decide
    simp only [m, List.forall_mem_cons]
    exact ⟨⟨rfl, True.intro⟩, ⟨rfl, hplain⟩, ⟨rfl, True.intro⟩, by simp⟩
  exact ⟨htable, hparsed, argumentSlots_exact.1 table htable text _ hparsed, hvalues,
    argumentSlots_exact.2 m hvalues⟩

end OperandStack
