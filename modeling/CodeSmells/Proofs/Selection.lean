import CodeSmells.Proofs.BooleanParameter
import CodeSmells.Proofs.Dispatch
import CodeSmells.Proofs.NameMap

/-!
# Selecting detectors

An analysis may be asked for some smell types only.  Then no detectors are built
for the others, which has the same outcome as building all detectors under a
configuration that disables the others.  What is found is what all detectors
find, without the warnings of the others.

**Results.**

* `get?_disabling`: the entries of a configuration that disables some detectors.
* `examine_select_eq_disabling`: a selection examines a context as all detectors do if the
  others are disabled.
* `examine_select_of_ok`: a selection finds its own part of what all detectors find.
* `selection_disables_the_others`: both, on any list of contexts.
-/

namespace CodeSmells

open Fallible

section Disabling

/-- The configuration with some detectors disabled; what their entries exclude is kept. -/
def Config.disabling (config : Config) : List String → Config
  | [] => config
  | name :: names =>
      let entry := (config.detectors.get? name).getD .blank
      disabling { config with
        detectors := config.detectors.insert name { entry with enabled := some false } } names

variable {config : Config} {names : List String} {name : String}

/-- The entries of the detectors that are disabled say so; the others are as before. -/
theorem Config.get?_disabling (config : Config) (names : List String) (name : String) :
    (config.disabling names).detectors.get? name =
      if name ∈ names then
        some { (config.detectors.get? name).getD .blank with enabled := some false }
      else config.detectors.get? name := by
  induction names generalizing config with
  | nil => simp [disabling]
  | cons first names ih =>
      rw [disabling, ih, NameMap.get?_insert]
      by_cases hfirst : first = name
      · subst hfirst
        simp
      · simp [hfirst, Ne.symm hfirst]

theorem Config.settingsFor_disabling_of_notMem (h : name ∉ names) :
    (config.disabling names).settingsFor name = config.settingsFor name := by
  rw [settingsFor, settingsFor, get?_disabling, if_neg h]

theorem Config.settingsFor_disabling_of_mem (h : name ∈ names) :
    ((config.disabling names).settingsFor name).enabled = false := by
  rw [settingsFor, get?_disabling, if_pos h]
  rfl

end Disabling

namespace SmellType

/-- A detector of the smell type is disabled when its settings say so. -/
def CanBeDisabled (smellType : SmellType) : Prop :=
  ∀ settings, settings.enabled = false → (smellType.build settings).enabled = false

/-- The warnings of detectors of the smell type carry its name. -/
def StampsName (smellType : SmellType) : Prop :=
  ∀ settings context warnings, (smellType.build settings).sniff context = .ok warnings →
    ∀ warning ∈ warnings, warning.smellType = smellType.name

/-- The names of the smell types that a list does not name. -/
def unselected (smellTypes : List SmellType) (names : List String) : List String :=
  (smellTypes.map name).filter fun name => !names.contains name

variable {smellTypes : List SmellType} {smellType : SmellType} {names : List String}

theorem mem_unselected_iff (hmem : smellType ∈ smellTypes) :
    smellType.name ∈ unselected smellTypes names ↔ smellType.name ∉ names := by
  simp only [unselected, List.mem_filter, List.mem_map_of_mem hmem, true_and, Bool.not_eq_true',
    List.contains_eq_mem, decide_eq_false_iff_not]

theorem select_eq_filter (hnames : names ≠ []) :
    select smellTypes names = smellTypes.filter fun smellType => names.contains smellType.name := by
  rw [select, if_neg (by simpa using hnames)]

end SmellType

theorem BooleanParameter.canBeDisabled : smellType.CanBeDisabled :=
  fun _ h => h

theorem BooleanParameter.stampsName : smellType.StampsName := by
  intro settings context warnings h warning hmem
  have hsniff : sniff context = .ok warnings := h
  by_cases hnamed : Named context
  · rw [sniff_of_named hnamed] at hsniff
    cases hsniff
    obtain ⟨assignment, -, rfl⟩ := List.mem_map.1 hmem
    rfl
  · rw [sniff_of_unnamed hnamed] at hsniff
    cases hsniff

namespace Registry

variable {smellTypes : List SmellType} {names : List String} {config : Config}

/-- A selection examines a context as if the other smell types contributed nothing. -/
theorem examine_select (hnames : names ≠ []) (context : Context) :
    (ofConfig (SmellType.select smellTypes names) config).examine context =
      inTurn (fun smellType : SmellType =>
        if names.contains smellType.name then
          (smellType.build (config.settingsFor smellType.name)).run context
        else .ok []) smellTypes := by
  rw [SmellType.select_eq_filter hnames, examine_ofConfig, inTurn_filter]

/-- A selection examines a context as all detectors do if the others are disabled. -/
theorem examine_select_eq_disabling (hnames : names ≠ [])
    (hdisable : ∀ smellType ∈ smellTypes, smellType.CanBeDisabled) (config : Config)
    (context : Context) :
    (ofConfig (SmellType.select smellTypes names) config).examine context =
      (ofConfig smellTypes (config.disabling (SmellType.unselected smellTypes names))).examine
        context := by
  rw [examine_select hnames, examine_ofConfig]
  apply inTurn_eq_of_forall₂
  rw [List.forall₂_same]
  intro smellType hmem
  let others := SmellType.unselected smellTypes names
  have hothers : smellType.name ∈ others ↔ smellType.name ∉ names :=
    SmellType.mem_unselected_iff hmem
  by_cases hnamed : smellType.name ∈ names
  · have hkept : (config.disabling others).settingsFor smellType.name =
        config.settingsFor smellType.name :=
      Config.settingsFor_disabling_of_notMem (mt hothers.1 (not_not.2 hnamed))
    rw [if_pos (by simpa using hnamed), hkept]
  · have hoff := hdisable smellType hmem ((config.disabling others).settingsFor smellType.name)
      (Config.settingsFor_disabling_of_mem (hothers.2 hnamed))
    rw [if_neg (by simpa using hnamed), Detector.run_of_not_admits]
    rw [Detector.admits, hoff]
    rfl

/-- A detector of a smell type finds warnings of its name. -/
theorem smellType_of_mem_run {smellType : SmellType} (hstamps : smellType.StampsName)
    {settings : DetectorSettings} {context : Context} {warnings : List Warning}
    (h : (smellType.build settings).run context = .ok warnings) :
    ∀ warning ∈ warnings, warning.smellType = smellType.name := by
  by_cases hattends : (smellType.build settings).Attends context
  · rw [Detector.run_of_attends hattends] at h
    exact hstamps settings context warnings h
  · rw [Detector.run_of_not_attends hattends] at h
    cases h
    exact nofun

/-- A selection finds its own part of what all detectors find in a context. -/
theorem examine_select_of_ok (hnames : names ≠ [])
    (hstamps : ∀ smellType ∈ smellTypes, smellType.StampsName) {context : Context}
    {warnings : List Warning} (h : (ofConfig smellTypes config).examine context = .ok warnings) :
    (ofConfig (SmellType.select smellTypes names) config).examine context =
      .ok (warnings.filter fun warning => names.contains warning.smellType) := by
  rw [examine_ofConfig] at h
  rw [examine_select hnames]
  refine inTurn_eq_ok_filter ?_ h
  intro smellType hmem found hfound
  have hname := smellType_of_mem_run (hstamps smellType hmem) hfound
  have hfilter : (found.filter fun warning => names.contains warning.smellType) =
      found.filter fun _ => names.contains smellType.name :=
    List.filter_congr fun warning hwarning => by rw [hname warning hwarning]
  rw [hfilter]
  cases hnamed : names.contains smellType.name with
  | true => rw [if_pos rfl, hfound, List.filter_true]
  | false => rw [if_neg Bool.false_ne_true, List.filter_false]

/--
A selection of smell types, whatever else its list names and how often, examines
contexts as all detectors do under the configuration that disables the other
smell types: with the same warnings, or the same failure.  Where all detectors
succeed, it finds their warnings but for those with the names of the others.
-/
theorem selection_disables_the_others {smellTypes : List SmellType} {names : List String}
    (hnames : names ≠ []) (config : Config) (contexts : List Context) :
    let selected := ofConfig (SmellType.select smellTypes names) config
    let disabled := ofConfig smellTypes
      (config.disabling (SmellType.unselected smellTypes names))
    ((∀ smellType ∈ smellTypes, smellType.CanBeDisabled) →
      (∀ context, selected.examine context = disabled.examine context) ∧
      selected.examineAll contexts = disabled.examineAll contexts) ∧
    ((∀ smellType ∈ smellTypes, smellType.StampsName) →
      ∀ warnings, (ofConfig smellTypes config).examineAll contexts = .ok warnings →
        selected.examineAll contexts =
          .ok (warnings.filter fun warning => names.contains warning.smellType)) := by
  intro selected disabled
  constructor
  · intro hdisable
    have hexamine : ∀ context, selected.examine context = disabled.examine context :=
      examine_select_eq_disabling hnames hdisable config
    refine ⟨hexamine, ?_⟩
    rw [examineAll_eq_inTurn, examineAll_eq_inTurn]
    exact inTurn_eq_of_forall₂ (List.forall₂_same.2 fun context _ => hexamine context)
  · intro hstamps warnings hall
    rw [examineAll_eq_inTurn] at hall ⊢
    exact inTurn_eq_ok_filter (fun _ _ _ hok => examine_select_of_ok hnames hstamps hok) hall

/--
Of three smell types, one of which fails, two are selected by a list that repeats
one name and has another one that nothing goes by.
-/
theorem selection_of_boolean_parameters :
    let echo : SmellType := ⟨"Echo", "", fun settings =>
      ⟨"Echo", "", [.class, .method], settings, fun context =>
        .ok [context.warning "Echo" [] "" NameMap.empty]⟩⟩
    let failing : SmellType := ⟨"Failing", "", fun settings =>
      ⟨"Failing", "", [.class], settings, fun context =>
        .error (.malformedContext "Failing" context.fullName "always")⟩⟩
    let smellTypes := [failing, BooleanParameter.smellType, echo]
    let names := ["BooleanParameter", "booleanparameter", "BooleanParameter"]
    let method := (Context.bare .method "Cli#run" 3).withDefault "force" .true
    let selected := ofConfig (SmellType.select smellTypes names) Config.default
    names ≠ [] ∧
    selected.examineAll [method, .bare .class "Cli" 1] =
      (ofConfig smellTypes (Config.default.disabling ["Failing", "Echo"])).examineAll
        [method, .bare .class "Cli" 1] ∧
    (ofConfig smellTypes Config.default).examineAll [method] =
      .ok [BooleanParameter.warningFor method ⟨"force", .true⟩,
        method.warning "Echo" [] "" NameMap.empty] ∧
    selected.examineAll [method] =
      .ok [BooleanParameter.warningFor method ⟨"force", .true⟩] := by
  intro echo failing smellTypes names method selected
  have hnames : names ≠ [] := List.cons_ne_nil _ _
  have hdisable : ∀ smellType ∈ smellTypes, smellType.CanBeDisabled := by
    simp only [smellTypes, List.forall_mem_cons]
    exact ⟨fun _ h => h, BooleanParameter.canBeDisabled, fun _ h => h, nofun⟩
  have hstamps : ∀ smellType ∈ smellTypes, smellType.StampsName := by
    simp only [smellTypes, List.forall_mem_cons]
    refine ⟨nofun, BooleanParameter.stampsName, ?_, nofun⟩
    rintro settings context warnings ⟨⟩ warning hmem
    rw [List.mem_singleton.1 hmem]
    rfl
  have hall : (ofConfig smellTypes Config.default).examineAll [method] =
      .ok [BooleanParameter.warningFor method ⟨"force", .true⟩,
        method.warning "Echo" [] "" NameMap.empty] := by decide +kernel
  obtain ⟨hsame, -⟩ := selection_disables_the_others hnames Config.default
    [method, .bare .class "Cli" 1]
  obtain ⟨-, hpart⟩ := selection_disables_the_others hnames Config.default [method]
  exact ⟨hnames, (hsame hdisable).2, hall, hpart hstamps _ hall⟩

end Registry

end CodeSmells
