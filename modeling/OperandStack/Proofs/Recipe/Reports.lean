import OperandStack.Recipe.Plan

/-!
# Errors of a resolution are reports

Whatever goes wrong with an item of a recipe is told in a report, never in a plain text and
never with another error behind it. Such an error can be placed further out without a loss:
only its path changes.
-/

namespace OperandStack

/-- A computation whose every error is a report without a cause. -/
def Reports {α : Type} (x : Except Error α) : Prop := ∀ e, x = .error e → ∃ r, e = .report r

namespace Reports

variable {α β : Type}

theorem ok (a : α) : Reports (.ok a) := by
  intro e h
  cases h

theorem report (r : Report) : Reports (.error (.report r) : Except Error α) := by
  intro e h
  cases h
  exact ⟨r, rfl⟩

/-- A computation reports if each of its steps does. -/
theorem bind {x : Except Error α} {f : α → Except Error β} (hx : Reports x)
    (hf : ∀ a, Reports (f a)) : Reports (x >>= f) := by
  cases x with
  | error e =>
    intro e' h
    cases h
    exact hx e rfl
  | ok a => exact hf a

end Reports

variable (table : TypeTable)

namespace TypeTable

/-- The parser of descriptors reports what it cannot read. -/
theorem reports_parseType (whole : String) (i : Nat) (cs : List Char) :
    Reports (table.parseType whole i cs) := by
  fun_induction parseType table whole i cs with
  | case1 => exact .report _
  | case2 i rest ih =>
    refine ih.bind fun component => ?_
    split
    · exact .report _
    · exact .ok _
  | case3 => exact .report _
  | case4 => exact .report _
  | case5 => exact .ok _
  | case6 => exact .report _
  | case7 => exact .ok _
  | case8 => exact .report _

theorem reports_parseField (descriptor : String) : Reports (table.parseField descriptor) := by
  refine (table.reports_parseType _ _ _).bind fun p => ?_
  split
  · exact .ok _
  · exact .report _

theorem reports_parseParameters (whole : String) (i : Nat) (cs : List Char) :
    Reports (table.parseParameters whole i cs) := by
  fun_induction parseParameters table whole i cs with
  | case1 => exact .report _
  | case2 => exact .ok _
  | case3 i c rest _ e he =>
    obtain ⟨r, rfl⟩ := table.reports_parseType _ _ _ e he
    exact .report r
  | case4 => exact .report _
  | case5 i c rest _ p hp hvoid hshorter e he ih =>
    obtain ⟨r, rfl⟩ := ih e he
    exact .report r
  | case6 => exact .ok _

theorem reports_parseMethod (descriptor : String) : Reports (table.parseMethod descriptor) := by
  unfold parseMethod
  split
  · refine (table.reports_parseParameters _ _ _).bind fun parameters => ?_
    refine (table.reports_parseType _ _ _).bind fun returned => ?_
    split
    · exact .ok _
    · exact .report _
  · exact .report _

theorem reports_resolveName (name : String) : Reports (table.resolveName name) := by
  unfold resolveName
  split
  · exact .ok _
  · exact .report _

theorem reports_describeSimple (name : String) : Reports (table.describeSimple name) := by
  have hname := table.reports_resolveName name
  have hfield := table.reports_parseField name
  unfold describeSimple
  split
  · exact .report _
  · split
    · exact .ok _
    · split
      · exact hfield
      · exact hname
  · exact hfield
  · split
    · split
      · exact .ok _
      · exact hname
    · exact hname
  · split
    · exact .ok _
    · exact .ok _
    · exact hname

/-- A spelling that is not understood is reported, at whatever depth of brackets. -/
theorem reports_describe (spelling : String) : Reports (table.describe spelling) := by
  unfold describe
  fun_induction describeReversed table spelling.toList.reverse with
  | case1 rest ih =>
    refine ih.bind fun component => ?_
    split
    · exact .report _
    · exact .ok _
  | case2 => exact table.reports_describeSimple _

end TypeTable

theorem reports_resolveModifiers (names : List String) : Reports (resolveModifiers names) := by
  induction names with
  | nil => exact .ok _
  | cons name rest ih =>
    rw [resolveModifiers]
    split
    · exact ih.bind fun _ => .ok _
    · exact .report _

theorem reports_resolveInterfaces (names : List String) :
    Reports (resolveInterfaces table names) := by
  induction names with
  | nil => exact .ok _
  | cons name rest ih =>
    refine (table.reports_describe name).bind fun t => ?_
    split
    · exact ih.bind fun _ => .ok _
    · exact .report _

theorem reports_resolveSuper (name : String) : Reports (resolveSuper table name) := by
  unfold resolveSuper
  split
  · exact .ok _
  · refine (table.reports_describe name).bind fun t => ?_
    split
    · exact .report _
    · exact .ok _

theorem TypeDecl.reports_resolve (d : TypeDecl) : Reports (d.resolve table) := by
  unfold TypeDecl.resolve
  split
  · exact .report _
  · refine (reports_resolveModifiers _).bind fun modifiers => ?_
    refine (reports_resolveInterfaces table _).bind fun interfaces => ?_
    dsimp only
    split
    · exact .ok _
    · exact (reports_resolveSuper table _).bind fun superClass => .ok _
    · exact .report _

theorem FieldDecl.reports_resolve (owner : TypeDesc) (d : FieldDecl) :
    Reports (d.resolve table owner) := by
  refine (table.reports_describe _).bind fun type => ?_
  split
  · exact .report _
  · exact (reports_resolveModifiers _).bind fun modifiers => .ok _

theorem reports_resolveParameters (method : String) (names : List String) :
    Reports (resolveParameters table method names) := by
  induction names with
  | nil => exact .ok _
  | cons name rest ih =>
    refine (table.reports_describe name).bind fun t => ?_
    split
    · exact .report _
    · exact ih.bind fun _ => .ok _

/-- A target of a delegation is reported for its form, its owner, its descriptor or its flags. -/
theorem reports_resolveTarget (target : String) (modifiers : List String) :
    Reports (resolveTarget table target modifiers) := by
  unfold resolveTarget
  dsimp only
  split
  · exact .report _
  · split
    · exact .report _
    · refine (table.reports_describe _).bind fun owner => ?_
      refine (table.reports_parseMethod _).bind fun signature => ?_
      exact (reports_resolveModifiers _).bind fun flags => .ok _

theorem reports_impliedType (value : Option Toml.Value) : Reports (impliedType value) := by
  unfold impliedType
  split
  · exact .ok _
  · exact .ok _
  · exact .ok _
  · exact .ok _
  · exact .report _
  · exact .report _

/-- A fixed value is reported where it is missing, of no known type or out of range. -/
theorem reports_resolveFixed (value : Option Toml.Value) (typeName : String) :
    Reports (resolveFixed table value typeName) := by
  unfold resolveFixed
  dsimp only
  split
  · refine (reports_impliedType value).bind fun name => ?_
    refine (table.reports_describe name).bind fun type => ?_
    split
    · exact .ok _
    · exact .report _
  · refine (table.reports_describe typeName).bind fun type => ?_
    split
    · exact .ok _
    · exact .report _

theorem reports_findField (fields : List Field) (name : String) :
    Reports (findField fields name) := by
  unfold findField
  split
  · exact .ok _
  · exact .report _

/-- Every sort of body reports what it lacks. -/
theorem MethodDecl.reports_implementation (fields : List Field) (d : MethodDecl) :
    Reports (d.implementation table fields) := by
  unfold MethodDecl.implementation
  split
  · exact .ok _
  · exact .ok _
  · exact .ok _
  · exact (reports_resolveFixed table _ _).bind fun _ => .ok _
  · exact (reports_findField fields _).bind fun _ => .ok _
  · exact (reports_findField fields _).bind fun _ => .ok _
  · exact (reports_resolveTarget table _ _).bind fun _ => .ok _
  · exact (table.reports_describe _).bind fun _ => .ok _
  · exact .report _

theorem MethodDecl.reports_resolve (owner : TypeDesc) (fields : List Field) (d : MethodDecl) :
    Reports (d.resolve table owner fields) := by
  refine (table.reports_describe _).bind fun returns => ?_
  refine (reports_resolveParameters table _ _).bind fun parameters => ?_
  refine (reports_resolveModifiers _).bind fun modifiers => ?_
  exact (d.reports_implementation table fields).bind fun implementation => .ok _

end OperandStack
