import CodeSmells.Detector.BooleanParameter
import CodeSmells.Proofs.Fallible

/-!
# What the detector of boolean parameters finds

**Results.**

* `sniff_of_named`: one warning for each default that is `true` or `false`.
* `sniff_of_unnamed`: one such default without a name is enough to fail.
* `sniff_eq_ok_iff`, `sniff_eq_error_iff`: what the detector reports, and when it fails.
* `sniff_is_exact`: the same of the detector with any settings, and that other defaults
  take no part in it.
-/

namespace CodeSmells

/-- The defaults that are `true` or `false`, in order. -/
def Context.booleanDefaults (context : Context) : List DefaultAssignment :=
  context.defaultAssignments.filter fun assignment => assignment.value.isBooleanLiteral

theorem Expression.isBooleanLiteral_iff {expression : Expression} :
    expression.isBooleanLiteral = Bool.true ↔ expression = .true ∨ expression = .false := by
  cases expression <;> simp [Expression.isBooleanLiteral]

theorem Context.mem_booleanDefaults {context : Context} {assignment : DefaultAssignment} :
    assignment ∈ context.booleanDefaults ↔
      assignment ∈ context.defaultAssignments ∧
        (assignment.value = .true ∨ assignment.value = .false) := by
  rw [Context.booleanDefaults, List.mem_filter, Expression.isBooleanLiteral_iff]

namespace BooleanParameter

open Fallible

/-- Every default that is `true` or `false` has the name of its parameter. -/
def Named (context : Context) : Prop :=
  ∀ assignment ∈ context.booleanDefaults, assignment.parameter ≠ ""

instance (context : Context) : Decidable (Named context) :=
  inferInstanceAs (Decidable (∀ assignment ∈ context.booleanDefaults, assignment.parameter ≠ ""))

/-- The failure on a context that is not named. -/
def unnamed (context : Context) : Failure :=
  .malformedContext name context.fullName "default assignment without a parameter name"

variable {context : Context}

theorem examine_of_named {assignment : DefaultAssignment} (h : assignment.parameter ≠ "") :
    examine context assignment = .ok (warningFor context assignment) := by
  rw [examine, if_neg]
  simpa [String.isEmpty_iff] using h

theorem examine_of_unnamed {assignment : DefaultAssignment} (h : assignment.parameter = "") :
    examine context assignment = .error (unnamed context) := by
  rw [examine, if_pos (by simp [h])]
  rfl

/-- One warning for each default that is `true` or `false`. -/
theorem sniff_of_named (h : Named context) :
    sniff context = .ok (context.booleanDefaults.map (warningFor context)) :=
  mapM_eq_ok_map fun assignment hmem => examine_of_named (h assignment hmem)

/-- One such default without a name is enough to fail, wherever it stands. -/
theorem sniff_of_unnamed (h : ¬ Named context) :
    sniff context = .error (unnamed context) := by
  obtain ⟨assignment, hmem, hempty⟩ :
      ∃ assignment ∈ context.booleanDefaults, assignment.parameter = "" := by
    simpa [Named] using h
  obtain ⟨first, -, failure, hfail, hsniff⟩ :=
    exists_error_of_mapM hmem (examine_of_unnamed hempty)
  have hfailure : failure = unnamed context := by
    by_cases hfirst : first.parameter = ""
    · rw [examine_of_unnamed hfirst] at hfail
      exact (Except.error.inj hfail).symm
    · rw [examine_of_named hfirst] at hfail
      cases hfail
  rw [← hfailure]
  exact hsniff

section Exactness

/-- The default is the literal `true` or the literal `false`. -/
def IsLiteral (assignment : DefaultAssignment) : Prop :=
  assignment.value = .true ∨ assignment.value = .false

/--
The warnings that a detector gives on the defaults of a context, one after the other.
A literal needs the name of its parameter; any other default is passed over.
-/
inductive Reports (smellType : String) (context : Context) :
    List DefaultAssignment → List Warning → Prop
  | nil : Reports smellType context [] []
  | literal {assignment : DefaultAssignment} {rest : List DefaultAssignment}
      {warnings : List Warning} :
      IsLiteral assignment → assignment.parameter ≠ "" →
      Reports smellType context rest warnings →
      Reports smellType context (assignment :: rest)
        ({ smellType
           context := context.fullName
           source := context.source
           lines := [context.line]
           message := "has boolean parameter '" ++ assignment.parameter ++ "'"
           parameters := NameMap.ofList [("parameter", assignment.parameter)] } :: warnings)
  | other {assignment : DefaultAssignment} {rest : List DefaultAssignment}
      {warnings : List Warning} :
      ¬ IsLiteral assignment → Reports smellType context rest warnings →
      Reports smellType context (assignment :: rest) warnings

variable {assignment : DefaultAssignment} {rest defaults : List DefaultAssignment}
  {warnings : List Warning}

theorem reports_literal_iff (h : IsLiteral assignment) :
    Reports name context (assignment :: rest) warnings ↔
      assignment.parameter ≠ "" ∧
        ∃ more, Reports name context rest more ∧
          warningFor context assignment :: more = warnings := by
  constructor
  · intro hreports
    cases hreports with
    | literal _ hnamed hrest => exact ⟨hnamed, _, hrest, rfl⟩
    | other hother _ => exact absurd h hother
  · rintro ⟨hnamed, more, hrest, rfl⟩
    exact .literal h hnamed hrest

theorem reports_other_iff (h : ¬ IsLiteral assignment) :
    Reports name context (assignment :: rest) warnings ↔ Reports name context rest warnings := by
  constructor
  · intro hreports
    cases hreports with
    | literal hliteral _ _ => exact absurd hliteral h
    | other _ hrest => exact hrest
  · intro hrest
    exact .other h hrest

/-- The traversal of the literals succeeds with what is reported on all defaults. -/
theorem mapM_examine_eq_ok_iff :
    (defaults.filter fun assignment => assignment.value.isBooleanLiteral).mapM
        (examine context) = .ok warnings ↔ Reports name context defaults warnings := by
  induction defaults generalizing warnings with
  | nil =>
      constructor
      · intro h
        cases h
        exact .nil
      · rintro ⟨⟩
        rfl
  | cons assignment rest ih =>
      by_cases hliteral : IsLiteral assignment
      · rw [List.filter_cons, if_pos (Expression.isBooleanLiteral_iff.2 hliteral),
          reports_literal_iff hliteral]
        by_cases hnamed : assignment.parameter = ""
        · rw [mapM_cons_error (examine_of_unnamed hnamed)]
          constructor
          · intro h
            cases h
          · rintro ⟨hnot, -⟩
            exact absurd hnamed hnot
        · rw [mapM_cons_ok (examine_of_named hnamed), map_eq_ok_iff]
          simp only [ih]
          exact (and_iff_right hnamed).symm
      · rw [List.filter_cons, if_neg (mt Expression.isBooleanLiteral_iff.1 hliteral),
          reports_other_iff hliteral]
        exact ih

theorem sniff_eq_ok_iff :
    sniff context = .ok warnings ↔
      Reports name context context.defaultAssignments warnings :=
  mapM_examine_eq_ok_iff

theorem named_iff :
    Named context ↔
      ∀ assignment ∈ context.defaultAssignments, IsLiteral assignment →
        assignment.parameter ≠ "" := by
  simp only [Named, Context.mem_booleanDefaults, and_imp, IsLiteral]

theorem exists_sniff_eq_ok_iff : (∃ warnings, sniff context = .ok warnings) ↔ Named context := by
  constructor
  · rintro ⟨warnings, hok⟩ assignment hmem hempty
    have hnamed : ¬ Named context := fun h => h assignment hmem hempty
    rw [sniff_of_unnamed hnamed] at hok
    cases hok
  · intro hnamed
    exact ⟨_, sniff_of_named hnamed⟩

/-- There is one failure only, and a literal without a name is what it takes. -/
theorem sniff_eq_error_iff {failure : Failure} :
    sniff context = .error failure ↔
      failure = unnamed context ∧
        ∃ assignment ∈ context.defaultAssignments,
          IsLiteral assignment ∧ assignment.parameter = "" := by
  have hunnamed : ¬ Named context ↔ ∃ assignment ∈ context.defaultAssignments,
      IsLiteral assignment ∧ assignment.parameter = "" := by
    simp only [named_iff, not_forall, exists_prop, not_not]
  rw [← hunnamed]
  by_cases hnamed : Named context
  · rw [sniff_of_named hnamed]
    constructor
    · intro h
      cases h
    · rintro ⟨-, hnot⟩
      exact absurd hnamed hnot
  · rw [sniff_of_unnamed hnamed]
    constructor
    · intro h
      cases h
      exact ⟨rfl, hnamed⟩
    · rintro ⟨rfl, -⟩
      rfl

/-- Leaving out a default that is no literal changes nothing. -/
theorem sniff_without_other {front back : List DefaultAssignment}
    (hsplit : context.defaultAssignments = front ++ assignment :: back)
    (h : ¬ IsLiteral assignment) :
    sniff { context with defaultAssignments := front ++ back } = sniff context := by
  have hliterals :
      (front ++ back).filter (fun assignment => assignment.value.isBooleanLiteral) =
        context.defaultAssignments.filter fun assignment =>
          assignment.value.isBooleanLiteral := by
    rw [hsplit, List.filter_append, List.filter_append, List.filter_cons,
      if_neg (mt Expression.isBooleanLiteral_iff.1 h)]
  rw [sniff, sniff, ← hliterals]
  rfl

/--
The detector succeeds exactly if every default that is `true` or `false` has the name of
its parameter.  It then gives one warning for each of these defaults, in the order of
their declaration, under its own name and at the place of the context.  Otherwise it
fails, and the failure names the detector and the context, whichever default is without
a name.  Other defaults may be left out wherever they stand.
-/
theorem sniff_is_exact (settings : DetectorSettings) (context : Context) :
    let detector := BooleanParameter.detector settings
    let defaults := context.defaultAssignments
    (∀ warnings, detector.sniff context = .ok warnings ↔
      Reports detector.smellType context defaults warnings) ∧
    ((∃ warnings, detector.sniff context = .ok warnings) ↔
      ∀ assignment ∈ defaults, IsLiteral assignment → assignment.parameter ≠ "") ∧
    (∀ failure, detector.sniff context = .error failure ↔
      failure = .malformedContext detector.smellType context.fullName
          "default assignment without a parameter name" ∧
        ∃ assignment ∈ defaults, IsLiteral assignment ∧ assignment.parameter = "") ∧
    (∀ front assignment back, defaults = front ++ assignment :: back →
      ¬ IsLiteral assignment →
      detector.sniff { context with defaultAssignments := front ++ back } =
        detector.sniff context) := by
  intro detector defaults
  have hexists : (∃ warnings, detector.sniff context = .ok warnings) ↔ Named context :=
    exists_sniff_eq_ok_iff
  exact ⟨fun warnings => sniff_eq_ok_iff, hexists.trans named_iff,
    fun failure => sniff_eq_error_iff, fun front assignment back => sniff_without_other⟩

/--
A method with five defaults: the two literals are reported, though they have one name,
and the default before them needs none.  A literal without a name at the end is enough
to fail.
-/
theorem sniff_of_mixed_defaults :
    let method := ((((Context.bare .method "Shape#draw" 7).withDefault "" .nil).withDefault
      "filled" .true).withDefault "width" (.int none)).withDefault "filled" .false
    let warning : Warning :=
      ⟨"BooleanParameter", "Shape#draw", ⟨""⟩, [7], "has boolean parameter 'filled'",
        NameMap.ofList [("parameter", "filled")]⟩
    (detector .default).sniff method = .ok [warning, warning] ∧
    (detector .default).sniff (method.withDefault "" .false) =
      .error (.malformedContext "BooleanParameter" "Shape#draw"
        "default assignment without a parameter name") ∧
    (detector .default).sniff { method with
      defaultAssignments := [⟨"filled", .true⟩, ⟨"width", .int none⟩, ⟨"filled", .false⟩] } =
        .ok [warning, warning] := by
  intro method warning
  obtain ⟨hok, -, -, hother⟩ := sniff_is_exact .default method
  obtain ⟨-, -, herror, -⟩ := sniff_is_exact .default (method.withDefault "" .false)
  have hreports : (detector .default).sniff method = .ok [warning, warning] :=
    (hok _).2 <| .other (by rintro (h | h) <;> cases h) <|
      .literal (.inl rfl) (by decide) <| .other (by rintro (h | h) <;> cases h) <|
      .literal (.inr rfl) (by decide) .nil
  refine ⟨hreports, (herror _).2 ⟨rfl, ⟨"", .false⟩, ?_, .inr rfl, rfl⟩, ?_⟩
  · simp [method, Context.withDefault]
  · exact (hother [] ⟨"", .nil⟩ _ rfl (by rintro (h | h) <;> cases h)).trans hreports

end Exactness

end BooleanParameter

end CodeSmells
