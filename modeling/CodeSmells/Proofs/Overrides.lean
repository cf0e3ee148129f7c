import CodeSmells.Proofs.Dispatch
import CodeSmells.Proofs.Tightening

/-!
# Overrides of single contexts

What a context says on a detector counts as if it were added to the settings of
the detector for this one context.  An override can disable the detector and
exclude the context, but it takes nothing back that the settings say.

**Results.**

* `attends_withOverride_iff`: when a detector looks at a context with an override.
* `attends_narrowedBy_iff`: when a detector with narrowed settings looks at a context.
* `override_narrows_settings`: an override has the outcome of narrowed settings.
-/

namespace CodeSmells

/-- Settings with an entry added to them. -/
def DetectorSettings.narrowedBy (settings : DetectorSettings) (entry : DetectorEntry) :
    DetectorSettings :=
  ⟨settings.enabled && entry.enabled != some false, settings.exclude ++ entry.exclude⟩

/-- Detectors of the smell type do not look at overrides when they look for smells. -/
def SmellType.IgnoresOverrides (smellType : SmellType) : Prop :=
  ∀ settings context overrides,
    (smellType.build settings).sniff { context with overrides } =
      (smellType.build settings).sniff context

theorem BooleanParameter.ignoresOverrides : smellType.IgnoresOverrides :=
  fun _ _ _ => rfl

section Entries

variable {context : Context} {settings : DetectorSettings} {entry : DetectorEntry}

/-- A name fits some of two lists of patterns if it fits some of one of them. -/
theorem Context.fits_append_eq_false_iff {patterns others : List String} :
    context.fits (patterns ++ others) = false ↔
      context.fits patterns = false ∧ context.fits others = false := by
  simp only [fits, NamePattern.anyFits, List.any_append, Bool.or_eq_false_iff]

theorem DetectorSettings.enabled_narrowedBy_iff :
    (settings.narrowedBy entry).enabled = true ↔
      settings.enabled = true ∧ entry.enabled ≠ some false := by
  simp [narrowedBy]

/-- The override that a context is given is the one that counts. -/
theorem Context.disables_withOverride_eq_false_iff {name : String} :
    (context.withOverride name entry).disables name = false ↔
      entry.enabled ≠ some false ∧ context.fits entry.exclude = false := by
  have hentry : (context.withOverride name entry).overrides.get? name = some entry := by
    rw [withOverride, NameMap.get?_insert, if_pos rfl]
  rw [disables_eq_false_iff, hentry]
  simp only [Option.mem_def, Option.some.injEq, forall_eq']
  rfl

end Entries

namespace Detector

variable {smellType : SmellType} {context : Context} {settings : DetectorSettings}
  {entry : DetectorEntry}

/-- An override only adds to the reasons not to look at a context. -/
theorem attends_withOverride_iff {detector : Detector}
    (hnone : context.overrides.get? detector.smellType = none) (entry : DetectorEntry) :
    detector.Attends (context.withOverride detector.smellType entry) ↔
      detector.Attends context ∧ entry.enabled ≠ some false ∧
        context.fits entry.exclude = false := by
  have hunsaid : context.disables detector.smellType = false := by
    rw [Context.disables, hnone]
  rw [attends_iff_admits, attends_iff_admits, admits_iff, admits_iff,
    Context.disables_withOverride_eq_false_iff, hunsaid]
  constructor
  · rintro ⟨henabled, hkind, hentry, hexclude⟩
    exact ⟨⟨henabled, hkind, rfl, hexclude⟩, hentry⟩
  · rintro ⟨⟨henabled, hkind, -, hexclude⟩, hentry⟩
    exact ⟨henabled, hkind, hentry, hexclude⟩

/-- With narrowed settings there are as many reasons not to look at a context. -/
theorem attends_narrowedBy_iff (hkeeps : smellType.KeepsSettings) :
    (smellType.build (settings.narrowedBy entry)).Attends context ↔
      (smellType.build settings).Attends context ∧ entry.enabled ≠ some false ∧
        context.fits entry.exclude = false := by
  have hname := hkeeps.name (settings.narrowedBy entry) settings
  have hkinds := hkeeps.kinds (settings.narrowedBy entry) settings
  have hexclude : context.fits (settings.narrowedBy entry).exclude = false ↔
      context.fits settings.exclude = false ∧ context.fits entry.exclude = false :=
    Context.fits_append_eq_false_iff
  rw [attends_iff_admits, attends_iff_admits, admits_iff, admits_iff, enabled, enabled,
    hkeeps.settings, hkeeps.settings, hname, hkinds, hexclude,
    DetectorSettings.enabled_narrowedBy_iff]
  constructor
  · rintro ⟨⟨henabled, hon⟩, hkind, hoverride, hsettings, hentry⟩
    exact ⟨⟨henabled, hkind, hoverride, hsettings⟩, hon, hentry⟩
  · rintro ⟨⟨henabled, hkind, hoverride, hsettings⟩, hon, hentry⟩
    exact ⟨⟨henabled, hon⟩, hkind, hoverride, hsettings, hentry⟩

/-- What an override does to the outcome, narrowed settings do. -/
theorem run_withOverride (hkeeps : smellType.KeepsSettings)
    (hignores : smellType.IgnoresOverrides)
    (hnone : context.overrides.get? (smellType.build settings).smellType = none) :
    (smellType.build settings).run
        (context.withOverride (smellType.build settings).smellType entry) =
      (smellType.build (settings.narrowedBy entry)).run context := by
  have hattends := attends_withOverride_iff hnone entry
  rw [← attends_narrowedBy_iff hkeeps] at hattends
  by_cases h : (smellType.build (settings.narrowedBy entry)).Attends context
  · rw [run_of_attends (hattends.2 h), run_of_attends h, Context.withOverride, hignores,
      hkeeps.sniff settings (settings.narrowedBy entry)]
  · rw [run_of_not_attends (mt hattends.1 h), run_of_not_attends h]

/--
An override has the outcome of settings to which it is added.  It can disable the
detector or exclude the context; where it does neither, it changes nothing, and
no override makes a detector look at a context which the settings or its kind
keep from it.
-/
theorem override_narrows_settings (hkeeps : smellType.KeepsSettings)
    (hignores : smellType.IgnoresOverrides) (settings : DetectorSettings)
    (entry : DetectorEntry)
    (hnone : context.overrides.get? (smellType.build settings).smellType = none) :
    let detector := smellType.build settings
    let overridden := context.withOverride detector.smellType entry
    detector.run overridden =
      (smellType.build ⟨settings.enabled && entry.enabled != some false,
        settings.exclude ++ entry.exclude⟩).run context ∧
    (entry.enabled = some false ∨ context.fits entry.exclude = true →
      detector.run overridden = .ok []) ∧
    (entry.enabled ≠ some false → context.fits entry.exclude = false →
      detector.run overridden = detector.run context) ∧
    (settings.enabled = false ∨ context.fits settings.exclude = true ∨
        context.kind ∉ detector.kinds →
      detector.run overridden = .ok []) := by
  intro detector overridden
  have hattends : detector.Attends overridden ↔ detector.Attends context ∧
      entry.enabled ≠ some false ∧ context.fits entry.exclude = false :=
    attends_withOverride_iff hnone entry
  refine ⟨run_withOverride hkeeps hignores hnone, ?_, ?_, ?_⟩
  · intro hentry
    apply run_of_not_attends
    rw [hattends]
    rintro ⟨-, hon, hfits⟩
    rcases hentry with hoff | hexcluded
    · exact hon hoff
    · rw [hfits] at hexcluded
      cases hexcluded
  · intro hon hfits
    by_cases h : detector.Attends context
    · rw [run_of_attends h, run_of_attends (hattends.2 ⟨h, hon, hfits⟩)]
      exact hignores settings context _
    · rw [run_of_not_attends h, run_of_not_attends fun h' => h (hattends.1 h').1]
  · intro hsettings
    apply run_of_not_attends
    rw [hattends]
    rintro ⟨⟨henabled, hkind, -, hexclude⟩, -⟩
    rw [hkeeps.settings] at henabled hexclude
    rcases hsettings with hoff | hexcluded | hother
    · rw [hoff] at henabled
      cases henabled
    · rw [hexclude] at hexcluded
      cases hexcluded
    · exact hother hkind

/-- An override that enables the detector does not bring an excluded method back. -/
theorem override_keeps_exclusion :
    let method := (Context.bare .method "Cli#run" 3).withDefault "force" .true
    let detector (exclude : List String) := BooleanParameter.detector ⟨true, exclude⟩
    method.overrides.get? "BooleanParameter" = none ∧
    (detector []).run method =
      .ok [BooleanParameter.warningFor method ⟨"force", .true⟩] ∧
    (detector ["Cli#*"]).run (method.withOverride "BooleanParameter" ⟨some true, ["Web"]⟩) =
      (detector ["Cli#*", "Web"]).run method ∧
    (detector ["Cli#*"]).run (method.withOverride "BooleanParameter" ⟨some true, ["Web"]⟩) =
      .ok [] := by
  intro method detector
  have hnone : method.overrides.get? "BooleanParameter" = none := rfl
  have hexcluded : method.fits ["Cli#*"] = true := by decide +kernel
  obtain ⟨hmerged, -, -, hkept⟩ := override_narrows_settings BooleanParameter.keepsSettings
    BooleanParameter.ignoresOverrides ⟨true, ["Cli#*"]⟩ ⟨some true, ["Web"]⟩ hnone
  exact ⟨hnone, by decide +kernel, hmerged, hkept (.inr (.inl hexcluded))⟩

end Detector

end CodeSmells
