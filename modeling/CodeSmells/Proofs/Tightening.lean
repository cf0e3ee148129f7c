import CodeSmells.Proofs.Analysis
import CodeSmells.Proofs.ReportOrder

/-!
# Tighter configurations

A configuration is tighter than another one if it enables no further detector,
excludes all that the other excludes, and suppresses all that the other
suppresses.  Under a tighter configuration an analysis finds no more, and fails
on no further context.

**Results.**

* `admits_of_tighter`: a detector looks at no further context.
* `examine_of_tighter`: less is found in a context.
* `kept_sublist`: fewer contexts are kept.
* `tightening_removes_findings`: less is found and counted, and the exit status follows.
-/

namespace CodeSmells

open Fallible

/-- The second configuration is tighter than the first one, as far as some detectors go. -/
structure Config.Tightens (names : List String) (config tighter : Config) : Prop where
  /-- It excludes what the first one excludes. -/
  exclude : ∀ name ∈ names, ∀ pattern ∈ (config.settingsFor name).exclude,
    pattern ∈ (tighter.settingsFor name).exclude
  /-- It enables only what the first one enables. -/
  enabled : ∀ name ∈ names, (tighter.settingsFor name).enabled = true →
    (config.settingsFor name).enabled = true
  /-- It suppresses what the first one suppresses. -/
  suppressed : ∀ glob ∈ config.suppressedFiles, glob ∈ tighter.suppressedFiles

/-- Detectors of the smell type keep their settings; nothing else about them depends on these. -/
structure SmellType.KeepsSettings (smellType : SmellType) : Prop where
  settings : ∀ settings, (smellType.build settings).settings = settings
  name : ∀ settings other, (smellType.build settings).smellType = (smellType.build other).smellType
  kinds : ∀ settings other, (smellType.build settings).kinds = (smellType.build other).kinds
  sniff : ∀ settings other, (smellType.build settings).sniff = (smellType.build other).sniff

theorem BooleanParameter.keepsSettings : smellType.KeepsSettings :=
  ⟨fun _ => rfl, fun _ _ => rfl, fun _ _ => rfl, fun _ _ => rfl⟩

/-- A name that fits none of some patterns fits none of fewer patterns. -/
theorem Context.fits_eq_false_of_subset {context : Context} {patterns more : List String}
    (hsubset : ∀ pattern ∈ patterns, pattern ∈ more) (h : context.fits more = false) :
    context.fits patterns = false := by
  rw [fits, NamePattern.anyFits, List.any_eq_false] at h ⊢
  exact fun pattern hmem => h pattern (hsubset pattern hmem)

namespace Detector

variable {smellType : SmellType} {context : Context} {settings tighter : DetectorSettings}

/-- With tighter settings a detector looks at no further context. -/
theorem admits_of_tighter (hkeeps : smellType.KeepsSettings)
    (henabled : tighter.enabled = true → settings.enabled = true)
    (hexclude : ∀ pattern ∈ settings.exclude, pattern ∈ tighter.exclude)
    (h : (smellType.build tighter).admits context = true) :
    (smellType.build settings).admits context = true := by
  rw [admits_iff] at h ⊢
  obtain ⟨hon, hkind, hoverride, hname⟩ := h
  rw [enabled, hkeeps.settings] at hon
  rw [hkeeps.settings] at hname
  refine ⟨?_, ?_, ?_, ?_⟩
  · rw [enabled, hkeeps.settings]
    exact henabled hon
  · rw [hkeeps.kinds settings tighter]
    exact hkind
  · rw [hkeeps.name settings tighter]
    exact hoverride
  · rw [hkeeps.settings]
    exact Context.fits_eq_false_of_subset hexclude hname

/-- With tighter settings a detector finds what it found, or nothing. -/
theorem run_of_tighter (hkeeps : smellType.KeepsSettings)
    (henabled : tighter.enabled = true → settings.enabled = true)
    (hexclude : ∀ pattern ∈ settings.exclude, pattern ∈ tighter.exclude)
    {warnings : List Warning} (h : (smellType.build settings).run context = .ok warnings) :
    ∃ fewer, (smellType.build tighter).run context = .ok fewer ∧ fewer.Sublist warnings := by
  cases hadmits : (smellType.build tighter).admits context with
  | true =>
      rw [run_of_admits (admits_of_tighter hkeeps henabled hexclude hadmits)] at h
      refine ⟨warnings, ?_, List.Sublist.refl _⟩
      rw [run_of_admits hadmits, hkeeps.sniff tighter settings]
      exact h
  | false => exact ⟨[], run_of_not_admits hadmits, List.nil_sublist _⟩

end Detector

section Tighter

variable {smellTypes : List SmellType} {config tighter : Config}

/-- Under a tighter configuration less is found in a context. -/
theorem Registry.examine_of_tighter (hkeeps : ∀ smellType ∈ smellTypes, smellType.KeepsSettings)
    (htighter : Config.Tightens (smellTypes.map SmellType.name) config tighter)
    {context : Context} {warnings : List Warning}
    (h : (ofConfig smellTypes config).examine context = .ok warnings) :
    ∃ fewer, (ofConfig smellTypes tighter).examine context = .ok fewer ∧
      fewer.Sublist warnings := by
  rw [examine_eq_runAll] at h ⊢
  simp only [ofConfig, List.mapM_map] at h ⊢
  refine flatten_mapM_sublist (List.Sublist.refl smellTypes) ?_ h
  intro smellType hmem ws hws
  have hname : smellType.name ∈ smellTypes.map SmellType.name := List.mem_map_of_mem hmem
  exact Detector.run_of_tighter (hkeeps smellType hmem) (htighter.enabled _ hname)
    (htighter.exclude _ hname) hws

/-- Under a tighter configuration fewer contexts are kept. -/
theorem Analyze.kept_sublist {names : List String}
    (htighter : Config.Tightens names config tighter) (contexts : List Context) :
    (kept tighter contexts).Sublist (kept config contexts) := by
  apply List.monotone_filter_right
  intro context h
  rw [List.all_eq_true] at h ⊢
  exact fun glob hmem => h glob (htighter.suppressed glob hmem)

/-- Fewer warnings are counted lower, whatever the smell type. -/
theorem Report.count_le_of_sublist {fewer warnings : List Warning} (h : fewer.Sublist warnings)
    (examined kept : Nat) (name : String) :
    ((ofWarnings kept fewer).countsBySmellType.get? name).getD 0 ≤
      ((ofWarnings examined warnings).countsBySmellType.get? name).getD 0 := by
  have hcount : ∀ (ws : List Warning) (n : Nat),
      ((ofWarnings n ws).countsBySmellType.get? name).getD 0 =
        (ws.map Warning.smellType).count name := by
    intro ws n
    rw [ofWarnings, getD_countSmellTypes]
    exact ((sortWarnings_perm ws).map Warning.smellType).count_eq name
  rw [hcount, hcount]
  exact (h.map Warning.smellType).count_le name

/-- If there are fewer warnings, the exit status does not rise. -/
theorem Analyze.code_of_sublist {fewer warnings : List Warning} (h : fewer.Sublist warnings)
    (examined kept : Nat) (request : AnalyzeRequest) (format other : OutputFormat) (colors : Bool)
    (hcode : (success request other colors (Report.ofWarnings kept fewer)).code = 1) :
    (success request format colors (Report.ofWarnings examined warnings)).code = 1 := by
  have htotal : ∀ (ws : List Warning) (n : Nat),
      (Report.ofWarnings n ws).totalWarnings = ws.length := by
    intro ws n
    exact (Report.sortWarnings_perm ws).length_eq
  simp only [success, htotal] at hcode ⊢
  have hlength := h.length_le
  split at hcode
  next => cases hcode
  next hsome => exact if_neg (by omega)

/-- Once everything is loaded, the exit status is that of the report on what is kept. -/
theorem Analyze.code_of_examineAll {request : AnalyzeRequest} {contexts : List Context}
    {warnings : List Warning}
    (h : (Registry.ofConfig (SmellType.eligible request.smellTypes) config).examineAll
      (kept config contexts) = .ok warnings)
    (colors : Bool) (files : Nat) (filter : LogFilter) (tree : FileTree) :
    ((examineLoaded request colors config files contexts).outcome filter tree).code =
      (success request (resolveFormat request.format config).1 colors
        (Report.ofWarnings (kept config contexts).length warnings)).code := by
  have hresult : (examineLoaded request colors config files contexts).result =
      (examine request colors config (kept config contexts)).result := by
    simp only [examineLoaded, kept_eq]
  rw [Course.outcome, hresult, examine_result_of_ok colors h]

/--
Under a tighter configuration an analysis that succeeded still does, with some of
its warnings in their order.  So no smell type is counted higher, and the exit
status is 1 only if it was.
-/
theorem Analyze.tightening_removes_findings
    (hkeeps : ∀ smellType ∈ smellTypes, smellType.KeepsSettings)
    (htighter : Config.Tightens (smellTypes.map SmellType.name) config tighter)
    {contexts : List Context} {warnings : List Warning}
    (hok : (Registry.ofConfig smellTypes config).examineAll (kept config contexts) =
      .ok warnings) :
    ∃ fewer,
      (Registry.ofConfig smellTypes tighter).examineAll (kept tighter contexts) = .ok fewer ∧
      fewer.Sublist warnings ∧
      let report := Report.ofWarnings (kept config contexts).length warnings
      let other := Report.ofWarnings (kept tighter contexts).length fewer
      (∀ name, (other.countsBySmellType.get? name).getD 0 ≤
        (report.countsBySmellType.get? name).getD 0) ∧
      (∀ request format colors, (success request format colors other).code = 1 →
        (success request format colors report).code = 1) ∧
      ∀ request colors files filter tree, SmellType.eligible request.smellTypes = smellTypes →
        ((examineLoaded request colors tighter files contexts).outcome filter tree).code = 1 →
        ((examineLoaded request colors config files contexts).outcome filter tree).code = 1 := by
  obtain ⟨fewer, hfewer, hsublist⟩ := flatten_mapM_sublist (kept_sublist htighter contexts)
    (fun context _ ws hws => Registry.examine_of_tighter hkeeps htighter hws) hok
  refine ⟨fewer, hfewer, hsublist, Report.count_le_of_sublist hsublist _ _, ?_, ?_⟩
  · intro request format colors hcode
    exact code_of_sublist hsublist _ _ request format format colors hcode
  · rintro request colors files filter tree rfl hcode
    rw [code_of_examineAll hfewer] at hcode
    rw [code_of_examineAll hok]
    exact code_of_sublist hsublist _ _ request _ _ colors hcode

/-- Of three methods one is suppressed by a tighter configuration and one is excluded. -/
theorem Analyze.tightening_leaves_one_method :
    let method (name source : String) : Context :=
      ((Context.bare .method name 1).withSource ⟨source⟩).withDefault "flag" .true
    let contexts := [method "A#a" "lib/a.rb", method "B#b" "lib/b.rb", method "C#c" "spec/c.rb"]
    let tighter : Config :=
      { Config.default with
        detectors := NameMap.empty.insert "BooleanParameter" ⟨none, ["A#*"]⟩
        suppressedFiles := ["spec/**"] }
    let registry (config : Config) : Registry :=
      Registry.ofConfig [BooleanParameter.smellType] config
    ∃ warnings fewer, warnings.length = 3 ∧ fewer.length = 1 ∧ fewer.Sublist warnings ∧
      (registry Config.default).examineAll (kept Config.default contexts) = .ok warnings ∧
      (registry tighter).examineAll (kept tighter contexts) = .ok fewer := by
  intro method contexts tighter registry
  have hkeeps : ∀ smellType ∈ [BooleanParameter.smellType], smellType.KeepsSettings := by
    intro smellType hmem
    rw [List.mem_singleton.1 hmem]
    exact BooleanParameter.keepsSettings
  have htighter : Config.Tightens ([BooleanParameter.smellType].map SmellType.name)
      Config.default tighter :=
    ⟨fun _ _ _ hmem => (nomatch hmem), fun _ _ _ => rfl, fun _ hmem => (nomatch hmem)⟩
  let warnings := contexts.map fun context =>
    BooleanParameter.warningFor context ⟨"flag", .true⟩
  have hok : (registry Config.default).examineAll (kept Config.default contexts) =
      .ok warnings := by decide +kernel
  obtain ⟨fewer, hfewer, hsublist, -⟩ := tightening_removes_findings hkeeps htighter hok
  have hone : (registry tighter).examineAll (kept tighter contexts) =
      .ok [BooleanParameter.warningFor (method "B#b" "lib/b.rb") ⟨"flag", .true⟩] := by
    decide +kernel
  have hlength : fewer.length = 1 := by
    rw [hone] at hfewer
    cases hfewer
    rfl
  exact ⟨warnings, fewer, rfl, hlength, hsublist, hok, hfewer⟩

end Tighter

end CodeSmells
