import CodeSmells.Command.Run
import CodeSmells.Proofs.BooleanParameter
import CodeSmells.Proofs.Context.Dump
import CodeSmells.Proofs.FailureText
import CodeSmells.Proofs.Files
import CodeSmells.Proofs.Loading
import CodeSmells.Proofs.Registry
import CodeSmells.Proofs.Report.Printed

/-!
# What an analysis reports

An analysis leaves out the contexts whose source is suppressed and looks for
boolean parameters in those of the others that are *live*: the smell is asked
for, the configuration does not disable it, the context is a method, and neither
the context nor the configuration excludes it.

**Results.**

* `admits_iff_live`: the gates of the detector, as the configuration and the context set them.
* `examineAll_of_named`, `examineAll_of_unnamed`: what an examination finds, or where it fails.
* `course_result`: once everything is loaded, only the examination is left.
* `analysis_reports_findings`: the outcome of a whole run.
-/

namespace CodeSmells

open Fallible

theorem SmellType.builtIn_eq : SmellType.builtIn = [BooleanParameter.smellType] := by
  rw [SmellType.builtIn, SmellType.sort, List.mergeSort_singleton]

theorem SmellType.eligible_eq (names : List String) :
    SmellType.eligible names =
      if names = [] ∨ "BooleanParameter" ∈ names then [BooleanParameter.smellType] else [] := by
  rw [SmellType.eligible, SmellType.select, SmellType.builtIn_eq]
  by_cases hempty : names = []
  · simp [hempty]
  · by_cases hmem : "BooleanParameter" ∈ names <;>
      simp [hempty, hmem, BooleanParameter.smellType, BooleanParameter.name]

namespace Analyze

/-- A context in which an analysis looks for boolean parameters. -/
structure Live (names : List String) (config : Config) (context : Context) : Prop where
  /-- The smell is asked for. -/
  selected : names = [] ∨ "BooleanParameter" ∈ names
  /-- The configuration does not disable the detector. -/
  enabled : ∀ entry ∈ config.detectors.get? "BooleanParameter", entry.enabled ≠ some false
  /-- The context is a method. -/
  kind : context.kind = .method ∨ context.kind = .singletonMethod
  /-- The context itself neither disables the detector nor excludes its own name. -/
  override : ∀ entry ∈ context.overrides.get? "BooleanParameter",
    entry.enabled ≠ some false ∧ context.fits entry.exclude = false
  /-- The configuration does not exclude the name of the context. -/
  exclude : ∀ entry ∈ config.detectors.get? "BooleanParameter",
    context.fits entry.exclude = false

instance (names : List String) (config : Config) (context : Context) :
    Decidable (Live names config context) :=
  decidable_of_iff
    ((names = [] ∨ "BooleanParameter" ∈ names) ∧
      (∀ entry ∈ config.detectors.get? "BooleanParameter", entry.enabled ≠ some false) ∧
      (context.kind = .method ∨ context.kind = .singletonMethod) ∧
      (∀ entry ∈ context.overrides.get? "BooleanParameter",
        entry.enabled ≠ some false ∧ context.fits entry.exclude = false) ∧
      (∀ entry ∈ config.detectors.get? "BooleanParameter",
        context.fits entry.exclude = false))
    ⟨fun ⟨h₁, h₂, h₃, h₄, h₅⟩ => ⟨h₁, h₂, h₃, h₄, h₅⟩,
      fun ⟨h₁, h₂, h₃, h₄, h₅⟩ => ⟨h₁, h₂, h₃, h₄, h₅⟩⟩

/-- The warning on a default of a context. -/
def warningOn (context : Context) (assignment : DefaultAssignment) : Warning :=
  { smellType := "BooleanParameter"
    context := context.fullName
    source := context.source
    lines := [context.line]
    message := "has boolean parameter '" ++ assignment.parameter ++ "'"
    parameters := NameMap.ofList [("parameter", assignment.parameter)] }

/-- One warning for each boolean default of each live context, in order. -/
def findings (names : List String) (config : Config) (contexts : List Context) :
    List Warning :=
  contexts.flatMap fun context =>
    if Live names config context then context.booleanDefaults.map (warningOn context) else []

/-- The contexts whose source no glob of the configuration suppresses. -/
def kept (config : Config) (contexts : List Context) : List Context :=
  contexts.filter fun context =>
    config.suppressedFiles.all fun glob => !Glob.fits glob context.source.text

section Examination

variable {names : List String} {config : Config} {context : Context}

def registry (names : List String) (config : Config) : Registry :=
  Registry.ofConfig (SmellType.eligible names) config

theorem registry_of_selected (h : names = [] ∨ "BooleanParameter" ∈ names) :
    registry names config =
      ⟨[BooleanParameter.detector (config.settingsFor "BooleanParameter")]⟩ := by
  rw [registry, SmellType.eligible_eq, if_pos h]
  rfl

theorem registry_of_not_selected (h : ¬ (names = [] ∨ "BooleanParameter" ∈ names)) :
    registry names config = ⟨[]⟩ := by
  rw [registry, SmellType.eligible_eq, if_neg h]
  rfl

theorem admits_iff_live (h : names = [] ∨ "BooleanParameter" ∈ names) :
    (BooleanParameter.detector (config.settingsFor "BooleanParameter")).admits context = true ↔
      Live names config context := by
  have hkind : context.kind ∈ Detector.defaultKinds ↔
      context.kind = .method ∨ context.kind = .singletonMethod := by
    simp [Detector.defaultKinds]
  rw [Detector.admits_iff]
  constructor
  · rintro ⟨henabled, hmem, hoverride, hexclude⟩
    exact ⟨h, Config.settingsFor_enabled_iff.1 henabled, hkind.1 hmem,
      Context.disables_eq_false_iff.1 hoverride,
      Config.fits_settingsFor_eq_false_iff.1 hexclude⟩
  · intro hlive
    exact ⟨Config.settingsFor_enabled_iff.2 hlive.enabled, hkind.2 hlive.kind,
      Context.disables_eq_false_iff.2 hlive.override,
      Config.fits_settingsFor_eq_false_iff.2 hlive.exclude⟩

/-- A live context is examined for boolean parameters. -/
theorem examine_of_live (h : Live names config context) :
    (registry names config).examine context = BooleanParameter.sniff context := by
  rw [registry_of_selected h.selected, Registry.examine_singleton,
    Detector.run_of_admits ((admits_iff_live h.selected).2 h)]
  rfl

/-- Nothing is found in a context that is not live. -/
theorem examine_of_not_live (h : ¬ Live names config context) :
    (registry names config).examine context = .ok [] := by
  by_cases hselected : names = [] ∨ "BooleanParameter" ∈ names
  · have hadmits : (BooleanParameter.detector
        (config.settingsFor "BooleanParameter")).admits context = false := by
      rw [← Bool.not_eq_true, admits_iff_live hselected]
      exact h
    rw [registry_of_selected hselected, Registry.examine_singleton,
      Detector.run_of_not_admits hadmits]
  · rw [registry_of_not_selected hselected, Registry.examine_nil]

variable {contexts : List Context}

/-- If the live contexts are named, the examination finds all there is to find. -/
theorem examineAll_of_named
    (h : ∀ context ∈ contexts, Live names config context → BooleanParameter.Named context) :
    (registry names config).examineAll contexts = .ok (findings names config contexts) := by
  apply Registry.examineAll_eq_ok_flatMap
  intro context hmem
  by_cases hlive : Live names config context
  · rw [examine_of_live hlive, BooleanParameter.sniff_of_named (h context hmem hlive),
      if_pos hlive]
    rfl
  · rw [examine_of_not_live hlive, if_neg hlive]

/-- If a live context is not named, the examination fails on such a context. -/
theorem examineAll_of_unnamed (hmem : context ∈ contexts) (hlive : Live names config context)
    (hunnamed : ¬ BooleanParameter.Named context) :
    ∃ first ∈ contexts, Live names config first ∧ ¬ BooleanParameter.Named first ∧
      (registry names config).examineAll contexts = .error (BooleanParameter.unnamed first) := by
  have hfail : (registry names config).examine context =
      .error (BooleanParameter.unnamed context) := by
    rw [examine_of_live hlive, BooleanParameter.sniff_of_unnamed hunnamed]
  obtain ⟨first, hfirst, failure, hfailure, hall⟩ :=
    Registry.exists_error_of_examineAll hmem hfail
  by_cases hlive' : Live names config first
  · rw [examine_of_live hlive'] at hfailure
    by_cases hnamed : BooleanParameter.Named first
    · rw [BooleanParameter.sniff_of_named hnamed] at hfailure
      cases hfailure
    · rw [BooleanParameter.sniff_of_unnamed hnamed] at hfailure
      cases hfailure
      exact ⟨first, hfirst, hlive', hnamed, hall⟩
  · rw [examine_of_not_live hlive'] at hfailure
    cases hfailure

end Examination

/-- What is shown of a context that is not named. -/
theorem text_unnamed (context : Context) :
    (CommandFailure.failed (BooleanParameter.unnamed context)).text =
      "Error: BooleanParameter cannot examine `" ++ context.fullName ++
        "`: default assignment without a parameter name\n" := by
  have htold : (CommandFailure.failed (BooleanParameter.unnamed context)).told =
      "Error: " ++ "BooleanParameter" ++ " cannot examine `" ++ context.fullName ++ "`: " ++
        "default assignment without a parameter name" ++ "\n" := rfl
  rw [CommandFailure.text_eq_told, htold]
  simp only [String.reduceAppend]
  simp only [String.append_assoc, String.reduceAppend]

section Runs

variable {tree : FileTree} {request : AnalyzeRequest} {config : Config} {paths : List Path}
  {dumps : List (List Context)}

theorem kept_eq (config : Config) (contexts : List Context) :
    kept config contexts = contexts.filter fun context => !config.suppresses context.source := by
  simp only [kept, Config.suppresses, List.all_eq_not_any_not, Bool.not_not]

theorem loadAll_of_loaded
    (h : List.Forall₂ (fun path contexts => Context.load tree path = .ok contexts) paths dumps) :
    loadAll tree paths = .ok dumps.flatten := by
  rw [loadAll, mapM_eq_ok_iff.2 h]
  rfl

/-- Once everything is loaded, the result is that of examining the contexts kept. -/
theorem course_result (colors : Bool)
    (hconfig : Config.load tree (configPath request) = .ok config)
    (hpaths : tree.discover request.path = .ok paths)
    (hdumps : List.Forall₂ (fun path contexts => Context.load tree path = .ok contexts)
      paths dumps) :
    (course tree request colors).result =
      (examine request colors config (kept config dumps.flatten)).result := by
  rw [course, hconfig]
  simp only [hpaths, loadAll_of_loaded hdumps, examineLoaded, kept_eq]

theorem examine_result_of_ok (colors : Bool) {contexts : List Context}
    {warnings : List Warning}
    (h : (registry request.smellTypes config).examineAll contexts = .ok warnings) :
    (examine request colors config contexts).result =
      .ok (success request (resolveFormat request.format config).1 colors
        (Report.ofWarnings contexts.length warnings)) := by
  rw [registry] at h
  simp only [examine, h]

theorem examine_result_of_error (colors : Bool) {contexts : List Context} {failure : Failure}
    (h : (registry request.smellTypes config).examineAll contexts = .error failure) :
    (examine request colors config contexts).result = .error (.failed failure) := by
  rw [registry] at h
  simp only [examine, h]

/-- The findings are all of one smell type. -/
theorem smellType_of_mem_findings {contexts : List Context} {warning : Warning}
    (h : warning ∈ findings request.smellTypes config contexts) :
    warning.smellType = "BooleanParameter" := by
  obtain ⟨context, -, hmem⟩ := List.mem_flatMap.1 h
  split_ifs at hmem
  · obtain ⟨assignment, -, rfl⟩ := List.mem_map.1 hmem
    rfl
  · cases hmem

/-- So this smell type is counted, and no other. -/
theorem entries_countSmellTypes_findings {warnings : List Warning}
    (h : ∀ warning ∈ warnings, warning.smellType = "BooleanParameter") :
    (Report.countSmellTypes warnings).entries =
      if warnings = [] then [] else [("BooleanParameter", warnings.length)] := by
  have htypes : warnings.map Warning.smellType =
      List.replicate warnings.length "BooleanParameter" :=
    List.eq_replicate_iff.2 ⟨List.length_map _, List.forall_mem_map.2 h⟩
  have hmem (e : String × Nat) : e ∈ (Report.countSmellTypes warnings).entries ↔
      0 < e.2 ∧ e = ("BooleanParameter", warnings.length) := by
    obtain ⟨name, count⟩ := e
    rw [Report.mem_countSmellTypes_iff, htypes, List.count_replicate]
    constructor
    · rintro ⟨hpos, rfl⟩
      split_ifs at hpos ⊢ with hname
      · exact ⟨hpos, by rw [← beq_iff_eq.1 hname]⟩
      · exact absurd hpos (Nat.lt_irrefl 0)
    · rintro ⟨hpos, hsame⟩
      cases hsame
      exact ⟨hpos, by simp⟩
  split_ifs with hempty
  · refine List.eq_nil_iff_forall_not_mem.2 fun e he => ?_
    obtain ⟨hpos, rfl⟩ := (hmem e).1 he
    rw [hempty] at hpos
    exact Nat.lt_irrefl 0 hpos
  · have hnodup : (Report.countSmellTypes warnings).entries.Nodup :=
      (NameMap.nodup_names _).of_map _
    refine List.perm_singleton.1 ((List.perm_ext_iff_of_nodup hnodup (List.nodup_singleton _)).2
      fun e => ?_)
    rw [hmem, List.mem_singleton, and_iff_right_iff_imp]
    rintro rfl
    exact List.length_pos_iff.2 hempty

/-- The lines of contexts that are loaded have 64 bits. -/
theorem line_lt_of_loaded
    (h : List.Forall₂ (fun path contexts => Context.load tree path = .ok contexts) paths dumps)
    {context : Context} (hmem : context ∈ dumps.flatten) : context.line < 2 ^ 64 := by
  induction h with
  | nil => cases hmem
  | cons hload _ ih =>
      rcases List.mem_append.1 hmem with hfirst | hrest
      · obtain ⟨_, _, text, -, -, hparse⟩ := Context.load_eq_ok_iff.1 hload
        exact (Context.isKept_of_parseDump hparse context hfirst).line
      · exact ih hrest

/--
The outcome of a run that loads everything.  If the live contexts are named, it
shows a report of one warning for each boolean default of a live context, in the
order of reports, and the exit status says whether there are any.  Otherwise it
fails on a live context that is not named.
-/
theorem analysis_reports_findings (surroundings : Surroundings)
    (hconfig : Config.load tree (configPath request) = .ok config)
    (hpaths : tree.discover request.path = .ok paths)
    (hdumps : List.Forall₂ (fun path contexts => Context.load tree path = .ok contexts)
      paths dumps) :
    let contexts := kept config dumps.flatten
    let found := findings request.smellTypes config contexts
    let format := (resolveFormat request.format config).1
    let outcome := Command.runRequest surroundings tree (.analyze request)
    ((∀ context ∈ contexts, Live request.smellTypes config context →
        BooleanParameter.Named context) →
      ∃ report : Report,
        report.contextsExamined = contexts.length ∧
        report.warnings.Perm found ∧
        report.warnings.Pairwise (fun a b => (Warning.order a b).isLE = true) ∧
        report.totalWarnings = found.length ∧
        report.countsBySmellType.entries =
          (if found = [] then [] else [("BooleanParameter", found.length)]) ∧
        (∀ warning ∈ report.warnings, ∀ line ∈ warning.lines, line < 2 ^ 64) ∧
        report.Shows request.quiet (surroundings.colors && !request.noColor) format
          outcome.stdout ∧
        outcome.code = if found = [] then 0 else 1) ∧
    ((∃ context ∈ contexts, Live request.smellTypes config context ∧
        ¬ BooleanParameter.Named context) →
      ∃ context ∈ contexts, Live request.smellTypes config context ∧
        ¬ BooleanParameter.Named context ∧ outcome.code = 1 ∧ outcome.stdout = "" ∧
        ∃ notices, outcome.stderr = notices ++
          ("Error: BooleanParameter cannot examine `" ++ context.fullName ++
            "`: default assignment without a parameter name\n")) := by
  intro contexts found format outcome
  have hresult := course_result surroundings.colors hconfig hpaths hdumps
  constructor
  · intro hnamed
    rw [examine_result_of_ok _ (examineAll_of_named hnamed)] at hresult
    let report := Report.ofWarnings contexts.length found
    have hperm : report.warnings.Perm found := List.mergeSort_perm _ _
    have htotal : report.totalWarnings = found.length := hperm.length_eq
    have hempty : report.warnings = [] ↔ found = [] := by
      rw [← List.length_eq_zero_iff, hperm.length_eq, List.length_eq_zero_iff]
    have hcounts := entries_countSmellTypes_findings fun warning hwarning =>
      smellType_of_mem_findings (hperm.mem_iff.1 hwarning)
    rw [hperm.length_eq, if_congr hempty rfl rfl] at hcounts
    have hlines : ∀ warning ∈ report.warnings, ∀ line ∈ warning.lines, line < 2 ^ 64 := by
      intro warning hwarning line hline
      obtain ⟨context, hcontext, hmem⟩ := List.mem_flatMap.1 (hperm.mem_iff.1 hwarning)
      split_ifs at hmem
      · obtain ⟨assignment, -, rfl⟩ := List.mem_map.1 hmem
        rw [List.mem_singleton.1 hline]
        exact line_lt_of_loaded hdumps (List.mem_filter.1 hcontext).1
      · cases hmem
    have houtcome : outcome.stdout = reportText request format surroundings.colors report ∧
        outcome.code = if report.totalWarnings = 0 then 0 else 1 := by
      simp only [outcome, Command.runRequest, Course.outcome, hresult]
      exact ⟨rfl, rfl⟩
    refine ⟨report, rfl, hperm, Report.sortWarnings_pairwise found, htotal, hcounts, hlines, ?_, ?_⟩
    · rw [houtcome.1]
      exact Report.shows_ofWarnings _ _ _ _ _
    · rw [houtcome.2, htotal]
      simp only [List.length_eq_zero_iff]
  · rintro ⟨unnamed, hmem, hlive, hunnamed⟩
    obtain ⟨context, hcontext, hlive', hunnamed', hfail⟩ :=
      examineAll_of_unnamed hmem hlive hunnamed
    rw [examine_result_of_error _ hfail] at hresult
    refine ⟨context, hcontext, hlive', hunnamed', ?_⟩
    simp only [outcome, Command.runRequest, Course.outcome, hresult]
    exact ⟨trivial, trivial, _, congrArg _ (text_unnamed context)⟩

/-- A dump of one method with a boolean default: one warning, and exit status 1. -/
theorem analysis_of_one_method :
    let method := ((Context.bare .method "Shape#draw" 7).withSource ⟨"shape.rb"⟩).withDefault
      "filled" .true
    let tree := (FileTree.emptyAt [⟨"home", by decide⟩]).put
      [⟨"srv", by decide⟩, ⟨"dump.json", by decide⟩] (Context.dump [method]).compact.toUTF8
    let request : AnalyzeRequest := ⟨⟨"/srv/dump.json"⟩, none, [], none, false, false⟩
    let outcome := Command.runRequest ⟨false, none⟩ tree (.analyze request)
    outcome.code = 1 ∧
      outcome.stdout =
        "\n  smellguard - Code Smell Detection\n  Contexts examined: 1\n\n" ++
        "  shape.rb\n    [7]:Shape#draw has boolean parameter 'filled' (BooleanParameter)\n\n" ++
        "  Summary\n    BooleanParameter         1\n    Total                    1\n\n" := by
  intro method tree request outcome
  have hconfig : Config.load tree (configPath request) = .ok Config.default := by
    have habsent : tree.present (configPath request) = false := by decide +kernel
    rw [Config.load, habsent]
    rfl
  have hput (bytes : ByteArray) : ((FileTree.emptyAt [⟨"home", by decide⟩]).put
      [⟨"srv", by decide⟩, ⟨"dump.json", by decide⟩] bytes).resolve ⟨"/srv/dump.json"⟩ =
        .ok (.file [⟨"srv", by decide⟩, ⟨"dump.json", by decide⟩] bytes) := by
    with_unfolding_all rfl
  have hfile := hput (Context.dump [method]).compact.toUTF8
  have hpaths : tree.discover request.path = .ok [request.path] :=
    FileTree.discover_of_resolve hfile
  have hparse : Context.parseDump (Context.dump [method]).compact = .ok [method] :=
    Context.parseDump_dump_of_bare (by decide +kernel) (by decide +kernel)
  have hdumps : List.Forall₂ (fun path contexts => Context.load tree path = .ok contexts)
      [request.path] [[method]] := .cons (Context.load_of_resolve hfile hparse) .nil
  have hfound : findings request.smellTypes Config.default
      (kept Config.default [[method]].flatten) = [warningOn method ⟨"filled", .true⟩] := by
    decide +kernel
  have hkept : (kept Config.default [[method]].flatten).length = 1 := by decide +kernel
  have hformat : (resolveFormat request.format Config.default).1 = .text := by decide +kernel
  have hnamed : ∀ context ∈ kept Config.default [[method]].flatten,
      Live request.smellTypes Config.default context → BooleanParameter.Named context := by
    intro context hcontext _
    rw [List.mem_singleton.1 (List.mem_filter.1 hcontext).1]
    decide +kernel
  obtain ⟨report, hexamined, hperm, -, htotal, hcounts, -, hshows, hcode⟩ :=
    (analysis_reports_findings ⟨false, none⟩ hconfig hpaths hdumps).1 hnamed
  rw [hfound] at hperm htotal hcounts hcode
  have hwarnings := List.perm_singleton.1 hperm
  rw [hkept] at hexamined
  rw [hformat] at hshows
  refine ⟨hcode, ?_⟩
  generalize Outcome.stdout _ = stdout at hshows
  cases hshows with
  | text =>
      rw [Report.printed, Report.printedBanner, Report.printedSummary, hexamined, hwarnings,
        htotal, hcounts]
      decide +kernel

end Runs

end Analyze
end CodeSmells
