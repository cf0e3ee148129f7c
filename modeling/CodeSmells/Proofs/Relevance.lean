import CodeSmells.Proofs.Overrides

/-!
# Entries that say nothing on the detectors

Of the entries of a configuration, and of the overrides of a context, only those
count that stand under the very name of a smell type.  All other entries may be
added, changed or left out, and so may the output format and the suppressions:
what is found in a list of contexts is the same, and so is a failure.

**Results.**

* `Context.AgreesOn`: contexts that differ at most in overrides of other names.
* `settingsFor_withEntry`: an entry counts under its own name only.
* `run_of_agreesOn`: a detector does not notice overrides of other names.
* `unrelated_entries_have_no_influence`: neither entries nor overrides of other names count.
-/

namespace CodeSmells

open Fallible

section Agreement

/-- Two contexts that differ at most in what they say on detectors with other names. -/
structure Context.AgreesOn (names : List String) (context other : Context) : Prop where
  content : other = { context with overrides := other.overrides }
  overrides : ∀ name ∈ names, other.overrides.get? name = context.overrides.get? name

/--
Detectors of the smell type go by its name, and when they look for smells they
read no overrides but those under some names.
-/
structure SmellType.ReadsOnly (names : List String) (smellType : SmellType) : Prop where
  name : ∀ settings, (smellType.build settings).smellType = smellType.name
  sniff : ∀ settings context other, Context.AgreesOn names context other →
    (smellType.build settings).sniff other = (smellType.build settings).sniff context

/-- The configuration with an entry in place of an older one. -/
def Config.withEntry (config : Config) (name : String) (entry : DetectorEntry) : Config :=
  { config with detectors := config.detectors.insert name entry }

variable {names : List String} {name : String} {context other : Context}

/-- An entry counts under its own name only. -/
theorem Config.settingsFor_withEntry (config : Config) (name key : String)
    (entry : DetectorEntry) :
    (config.withEntry name entry).settingsFor key =
      if name = key then .ofEntry entry else config.settingsFor key := by
  rw [settingsFor, withEntry, NameMap.get?_insert]
  by_cases hkey : name = key
  · simp [hkey]
  · simp [hkey, settingsFor]

/-- An override of another name makes no difference that counts. -/
theorem Context.agreesOn_withOverride (h : name ∉ names) (entry : DetectorEntry) :
    AgreesOn names context (context.withOverride name entry) where
  content := rfl
  overrides key hkey := by
    have hne : name ≠ key := fun heq => h (heq ▸ hkey)
    rw [withOverride, NameMap.get?_insert, if_neg hne]

theorem Context.AgreesOn.symm (h : AgreesOn names context other) :
    AgreesOn names other context where
  content := by rw [h.content]
  overrides name hname := (h.overrides name hname).symm

/-- Contexts that agree on a name disable the detector of this name alike. -/
theorem Context.AgreesOn.disables_eq (h : AgreesOn names context other) (hname : name ∈ names) :
    other.disables name = context.disables name := by
  have hfullName : other.fullName = context.fullName := by rw [h.content]
  simp only [disables, fits, h.overrides name hname, hfullName]

theorem SmellType.IgnoresOverrides.readsOnly {smellType : SmellType}
    (h : smellType.IgnoresOverrides)
    (hname : ∀ settings, (smellType.build settings).smellType = smellType.name)
    (names : List String) : smellType.ReadsOnly names where
  name := hname
  sniff settings context other hagrees := by
    rw [hagrees.content]
    exact h settings context other.overrides

end Agreement

/-- A detector does not notice overrides of other names. -/
theorem Detector.run_of_agreesOn {smellType : SmellType} {names : List String}
    (hreads : smellType.ReadsOnly names) (hname : smellType.name ∈ names)
    (settings : DetectorSettings) {context other : Context}
    (h : Context.AgreesOn names context other) :
    (smellType.build settings).run other = (smellType.build settings).run context := by
  have hkind : other.kind = context.kind := by rw [h.content]
  have hfullName : other.fullName = context.fullName := by rw [h.content]
  have hdisables : other.disables (smellType.build settings).smellType =
      context.disables (smellType.build settings).smellType := by
    rw [hreads.name]
    exact h.disables_eq hname
  have hadmits : (smellType.build settings).admits other =
      (smellType.build settings).admits context := by
    simp only [admits, Context.fits, hkind, hfullName, hdisables]
  rw [run, run, hadmits, hreads.sniff settings context other h]

namespace Registry

variable {smellTypes : List SmellType} {config other : Config}

/-- What a configuration says on other names, and all else that it says, does not count. -/
theorem ofConfig_of_settingsFor
    (h : ∀ name ∈ smellTypes.map SmellType.name, other.settingsFor name = config.settingsFor name) :
    ofConfig smellTypes other = ofConfig smellTypes config := by
  rw [ofConfig, ofConfig, mk.injEq]
  apply List.map_congr_left
  intro smellType hmem
  rw [h smellType.name (List.mem_map_of_mem hmem)]

/-- Contexts that agree on the names of all smell types are examined alike. -/
theorem examine_of_agreesOn
    (hreads : ∀ smellType ∈ smellTypes, smellType.ReadsOnly (smellTypes.map SmellType.name))
    {context changed : Context}
    (h : Context.AgreesOn (smellTypes.map SmellType.name) context changed) :
    (ofConfig smellTypes config).examine changed =
      (ofConfig smellTypes config).examine context := by
  rw [examine_ofConfig, examine_ofConfig]
  apply inTurn_eq_of_forall₂
  rw [List.forall₂_same]
  intro smellType hmem
  exact Detector.run_of_agreesOn (hreads smellType hmem) (List.mem_map_of_mem hmem) _ h

/--
Two configurations that agree on the settings for the names of all smell types
have the same outcome on any contexts, and so have contexts that agree on their
overrides for these names.  An entry is one for the very name that it stands
under, so that under any other name it has no influence.
-/
theorem unrelated_entries_have_no_influence (smellTypes : List SmellType) (config : Config)
    (contexts : List Context) :
    let names := smellTypes.map SmellType.name
    let outcome := (ofConfig smellTypes config).examineAll contexts
    (∀ other : Config, (∀ name ∈ names, other.settingsFor name = config.settingsFor name) →
      (ofConfig smellTypes other).examineAll contexts = outcome) ∧
    ((∀ smellType ∈ smellTypes, smellType.ReadsOnly names) →
      ∀ changed, List.Forall₂ (Context.AgreesOn names) contexts changed →
        (ofConfig smellTypes config).examineAll changed = outcome) ∧
    (∀ name key entry, (config.withEntry name entry).settingsFor key =
      if name = key then .ofEntry entry else config.settingsFor key) ∧
    ∀ name, name ∉ names → ∀ entry,
      (ofConfig smellTypes (config.withEntry name entry)).examineAll contexts = outcome ∧
      ((∀ smellType ∈ smellTypes, smellType.ReadsOnly names) →
        (ofConfig smellTypes config).examineAll
          (contexts.map fun context => context.withOverride name entry) = outcome) := by
  intro names outcome
  have hconfigs : ∀ other : Config,
      (∀ name ∈ names, other.settingsFor name = config.settingsFor name) →
        (ofConfig smellTypes other).examineAll contexts = outcome := by
    intro other hagree
    rw [ofConfig_of_settingsFor hagree]
  have hcontexts : (∀ smellType ∈ smellTypes, smellType.ReadsOnly names) →
      ∀ changed, List.Forall₂ (Context.AgreesOn names) contexts changed →
        (ofConfig smellTypes config).examineAll changed = outcome := by
    intro hreads changed hchanged
    simp only [outcome, examineAll_eq_inTurn]
    refine (inTurn_eq_of_forall₂ (hchanged.imp ?_)).symm
    exact fun context changed hagrees => (examine_of_agreesOn hreads hagrees).symm
  refine ⟨hconfigs, hcontexts, config.settingsFor_withEntry, ?_⟩
  intro name hname entry
  constructor
  · apply hconfigs
    intro key hkey
    have hne : name ≠ key := fun heq => hname (heq ▸ hkey)
    rw [Config.settingsFor_withEntry, if_neg hne]
  · intro hreads
    apply hcontexts hreads
    rw [List.forall₂_map_right_iff, List.forall₂_same]
    exact fun context _ => Context.agreesOn_withOverride hname entry

/--
A detector is disabled under other spellings of its name, in the configuration
and in the contexts, together with other changes of the configuration.
-/
theorem entries_of_other_spellings :
    let smellTypes := [BooleanParameter.smellType]
    let names := smellTypes.map SmellType.name
    let off : DetectorEntry := ⟨some false, [""]⟩
    let config : Config :=
      { (Config.default.withEntry "booleanparameter" off).withEntry " BooleanParameter" off with
        outputFormat := "json"
        suppressedFiles := ["**"] }
    let method := (Context.bare .method "Cli#run" 3).withDefault "force" .true
    let found := (ofConfig smellTypes Config.default).examineAll [method]
    (∀ name ∈ names, config.settingsFor name = Config.default.settingsFor name) ∧
    (∀ smellType ∈ smellTypes, smellType.ReadsOnly names) ∧
    "BooleanParameter " ∉ names ∧
    found = .ok [BooleanParameter.warningFor method ⟨"force", .true⟩] ∧
    (ofConfig smellTypes config).examineAll [method] = found ∧
    (ofConfig smellTypes (Config.default.withEntry "BooleanParameter " off)).examineAll [method] =
      found ∧
    (ofConfig smellTypes Config.default).examineAll
      [method.withOverride "BooleanParameter " off] = found ∧
    List.Forall₂ (Context.AgreesOn names) [method.withOverride "Boolean" off] [method] ∧
    found = (ofConfig smellTypes Config.default).examineAll
      [method.withOverride "Boolean" off] := by
  intro smellTypes names off config method found
  have hreads : ∀ smellType ∈ smellTypes, smellType.ReadsOnly names := by
    intro smellType hmem
    rw [List.mem_singleton.1 hmem]
    exact BooleanParameter.ignoresOverrides.readsOnly (fun _ => rfl) names
  have hagree : ∀ name ∈ names, config.settingsFor name = Config.default.settingsFor name := by
    intro name hmem
    rw [List.mem_singleton.1 hmem]
    decide +kernel
  have hblank : "BooleanParameter " ∉ names := by decide +kernel
  obtain ⟨hconfigs, -, -, hspelling⟩ :=
    unrelated_entries_have_no_influence smellTypes Config.default [method]
  obtain ⟨hentry, hoverride⟩ := hspelling "BooleanParameter " hblank off
  -- An override is taken away.
  have hremoved : List.Forall₂ (Context.AgreesOn names) [method.withOverride "Boolean" off]
      [method] := .cons (Context.agreesOn_withOverride (by decide +kernel) off).symm .nil
  obtain ⟨-, hcontexts, -⟩ := unrelated_entries_have_no_influence smellTypes Config.default
    [method.withOverride "Boolean" off]
  exact ⟨hagree, hreads, hblank, by decide +kernel, hconfigs config hagree, hentry,
    hoverride hreads, hremoved, hcontexts hreads [method] hremoved⟩

end Registry

end CodeSmells
