import CodeSmells.Proofs.Files
import CodeSmells.Proofs.Stages

/-!
# Suppressed contexts

A context whose source is suppressed is counted and otherwise forgotten: an
analysis of dumps without it has the same outcome, up to the number of
suppressed contexts in the log.

**Results.**

* `Thinned`: contexts without some of those that are suppressed.
* `kept_of_thinned`: the same contexts are kept.
* `showsCounts_of_loads`: the counts that an analysis shows.
* `suppressed_contexts_have_no_influence`: the outcomes with and without suppressed contexts.
-/

namespace CodeSmells
namespace Analyze

open Fallible

/-- Contexts without some of those whose source a glob of the configuration suppresses. -/
inductive Thinned (config : Config) : List Context → List Context → Prop
  | nil : Thinned config [] []
  | keep {context : Context} {contexts fewer : List Context} :
      Thinned config contexts fewer →
      Thinned config (context :: contexts) (context :: fewer)
  | leaveOut {context : Context} {contexts fewer : List Context} {glob : String} :
      glob ∈ config.suppressedFiles →
      Glob.fits glob context.source.text = true →
      Thinned config contexts fewer →
      Thinned config (context :: contexts) fewer

section Counts

variable {config : Config}

/-- The contexts that are left out are not kept anyway. -/
theorem kept_of_thinned {contexts fewer : List Context} (h : Thinned config contexts fewer) :
    kept config fewer = kept config contexts := by
  induction h with
  | nil => rfl
  | keep _ ih =>
      simp only [kept, List.filter_cons] at ih ⊢
      rw [ih]
  | @leaveOut context contexts fewer glob hglob hfits _ ih =>
      have hsuppressed : (config.suppressedFiles.all fun glob =>
          !Glob.fits glob context.source.text) = false := by
        rw [List.all_eq_false]
        exact ⟨glob, hglob, by simp [hfits]⟩
      simp only [kept, List.filter_cons, hsuppressed, Bool.false_eq_true, if_false] at ih ⊢
      exact ih

theorem kept_append (contexts others : List Context) :
    kept config (contexts ++ others) = kept config contexts ++ kept config others :=
  List.filter_append contexts others

theorem kept_flatten_of_thinned {dumps fewer : List (List Context)}
    (h : List.Forall₂ (Thinned config) dumps fewer) :
    kept config fewer.flatten = kept config dumps.flatten := by
  induction h with
  | nil => rfl
  | cons hthinned _ ih =>
      rw [List.flatten_cons, List.flatten_cons, kept_append, kept_append,
        kept_of_thinned hthinned, ih]

/-- No more contexts are kept than there are. -/
theorem length_kept_add (config : Config) (contexts : List Context) :
    (kept config contexts).length + (contexts.length - (kept config contexts).length) =
      contexts.length := by
  have hle : (kept config contexts).length ≤ contexts.length := List.length_filter_le _ contexts
  omega

end Counts

section Runs

variable {tree thinned : FileTree} {request : AnalyzeRequest} {config : Config}
  {paths : List Path} {dumps fewer : List (List Context)}

/-- What an analysis shows of the contexts that it has loaded from so many files. -/
structure ShowsCounts (surroundings : Surroundings) (tree : FileTree) (request : AnalyzeRequest)
    (config : Config) (files : Nat) (loaded : List Context) : Prop where
  /-- The log counts the contexts that are kept, and all others as suppressed. -/
  lines : ∃ suppressed before after, (kept config loaded).length + suppressed = loaded.length ∧
    (Command.runRequest surroundings tree (.analyze request)).stderr =
      before ++ loadedLine (.ofSetting surroundings.log) files (kept config loaded).length
          suppressed ++
        progressLine request.quiet (kept config loaded).length files ++ after
  /-- The report is on the contexts that are kept. -/
  report : ∀ success, (course tree request surroundings.colors).result = .ok success →
    ∃ report : Report, report.contextsExamined = (kept config loaded).length ∧
      report.Shows request.quiet (surroundings.colors && !request.noColor)
        (resolveFormat request.format config).1
        (Command.runRequest surroundings tree (.analyze request)).stdout

/-- The report of an analysis is shown, on the contexts that are kept. -/
theorem exists_report_of_loads (surroundings : Surroundings)
    (hloads : Loads tree request config paths dumps) {success : Success}
    (hok : (course tree request surroundings.colors).result = .ok success) :
    ∃ report : Report, report.contextsExamined = (kept config dumps.flatten).length ∧
      report.Shows request.quiet (surroundings.colors && !request.noColor)
        (resolveFormat request.format config).1
        (Command.runRequest surroundings tree (.analyze request)).stdout := by
  have hstdout : (Command.runRequest surroundings tree (.analyze request)).stdout =
      success.stdout :=
    congrArg Outcome.stdout (Course.outcome_of_ok hok (.ofSetting surroundings.log) tree)
  rw [course_of_loads hloads] at hok
  rw [hstdout]
  cases hexamined :
      (registry request.smellTypes config).examineAll (kept config dumps.flatten) with
  | error failure =>
      simp only [examine_result_of_error surroundings.colors hexamined] at hok
      cases hok
  | ok warnings =>
      simp only [examine_result_of_ok surroundings.colors hexamined] at hok
      cases hok
      exact ⟨_, rfl, Report.shows_ofWarnings _ _ _ _ _⟩

/-- What is said around the counts depends on the contexts that are kept. -/
theorem exists_lines_of_loads (surroundings : Surroundings) (request : AnalyzeRequest)
    (config : Config) (contexts : List Context) :
    ∃ before after, ∀ {tree paths dumps}, Loads tree request config paths dumps →
      kept config dumps.flatten = contexts →
      (Command.runRequest surroundings tree (.analyze request)).stderr =
        before ++ loadedLine (.ofSetting surroundings.log) paths.length contexts.length
            (dumps.flatten.length - contexts.length) ++
          progressLine request.quiet contexts.length paths.length ++ after := by
  obtain ⟨before, after, hsaid⟩ := exists_stderr_of_examine (.ofSetting surroundings.log) request
    surroundings.colors config contexts
  refine ⟨logLines before, logLines after ++
    Course.ending (examine request surroundings.colors config contexts).result,
    fun {tree paths dumps} hloads hkept => ?_⟩
  rw [Command.runRequest, course_of_loads hloads, hkept]
  exact hsaid paths.length contexts.length _ tree

/-- Whatever an analysis has loaded, it shows the right counts. -/
theorem showsCounts_of_loads (surroundings : Surroundings)
    (hloads : Loads tree request config paths dumps) :
    ShowsCounts surroundings tree request config paths.length dumps.flatten := by
  obtain ⟨before, after, hlines⟩ :=
    exists_lines_of_loads surroundings request config (kept config dumps.flatten)
  exact ⟨⟨_, before, after, length_kept_add config dumps.flatten, hlines hloads rfl⟩,
    fun _ hok => exists_report_of_loads surroundings hloads hok⟩

/-- The record of an analysis on what it has loaded has the right counts. -/
theorem text_of_loaded_record {colors : Bool} {entry : LogRecord}
    (h : .log entry ∈ (course tree request colors).notices) (hlevel : entry.level = .debug)
    (horigin : entry.origin = "smellguard::commands::analyze") :
    ∃ config paths dumps suppressed, Loads tree request config paths dumps ∧
      (kept config dumps.flatten).length + suppressed = dumps.flatten.length ∧
      entry.text = "loaded contexts files=" ++ toString paths.length ++ " contexts=" ++
        toString (kept config dumps.flatten).length ++ " suppressed=" ++ toString suppressed := by
  obtain ⟨config, paths, dumps, hloads, hentry⟩ := loadedNotice_of_mem_course h hlevel horigin
  refine ⟨config, paths, dumps, _, hloads, length_kept_add config dumps.flatten, ?_⟩
  rw [Notice.log.inj hentry]

/--
An analysis of dumps without some of the suppressed contexts has the same
result, the same exit status and the same text, and says the same but for the
number of suppressed contexts.  Whatever an analysis has loaded, the contexts
that it keeps and those that it suppresses add up, and the kept ones are those
that it announces and reports.
-/
theorem suppressed_contexts_have_no_influence (surroundings : Surroundings)
    (hloads : Loads tree request config paths dumps)
    (hthinned : Loads thinned request config paths fewer)
    (hfewer : List.Forall₂ (Thinned config) dumps fewer) :
    let outcome := Command.runRequest surroundings tree (.analyze request)
    let other := Command.runRequest surroundings thinned (.analyze request)
    let filter := LogFilter.ofSetting surroundings.log
    let examined := (kept config dumps.flatten).length
    other.code = outcome.code ∧ other.stdout = outcome.stdout ∧
    (course thinned request surroundings.colors).result =
      (course tree request surroundings.colors).result ∧
    (∃ before after suppressed left,
      examined + suppressed = dumps.flatten.length ∧ examined + left = fewer.flatten.length ∧
      outcome.stderr = before ++ loadedLine filter paths.length examined suppressed ++
        progressLine request.quiet examined paths.length ++ after ∧
      other.stderr = before ++ loadedLine filter paths.length examined left ++
        progressLine request.quiet examined paths.length ++ after) ∧
    (∀ surroundings tree request config paths dumps, Loads tree request config paths dumps →
      ShowsCounts surroundings tree request config paths.length dumps.flatten) ∧
    ∀ tree request colors entry, .log entry ∈ (course tree request colors).notices →
      entry.level = .debug → entry.origin = "smellguard::commands::analyze" →
      ∃ config paths dumps suppressed, Loads tree request config paths dumps ∧
        (kept config dumps.flatten).length + suppressed = dumps.flatten.length ∧
        entry.text = "loaded contexts files=" ++ toString paths.length ++ " contexts=" ++
          toString (kept config dumps.flatten).length ++ " suppressed=" ++
          toString suppressed := by
  intro outcome other filter examined
  have hkept := kept_flatten_of_thinned hfewer
  have hresult : (course thinned request surroundings.colors).result =
      (course tree request surroundings.colors).result := by
    rw [course_of_loads hloads, course_of_loads hthinned, hkept]
  obtain ⟨hcode, hstdout⟩ := Course.outcome_of_result hresult filter thinned tree
  have hcount := length_kept_add config fewer.flatten
  rw [hkept] at hcount
  -- Both runs say the same before the counts and after them.
  obtain ⟨before, after, hlines⟩ :=
    exists_lines_of_loads surroundings request config (kept config dumps.flatten)
  exact ⟨hcode, hstdout, hresult,
    ⟨before, after, _, _, length_kept_add config dumps.flatten, hcount, hlines hloads rfl,
      hlines hthinned hkept⟩,
    fun _ _ _ _ _ _ => showsCounts_of_loads _, fun _ _ _ _ => text_of_loaded_record⟩

/--
A method of a suppressed file has a default without a name.  With or without it,
the outcome is the same.
-/
theorem suppressed_method_of_one_dump :
    let method := ((Context.bare .method "Shape#draw" 7).withSource ⟨"lib/shape.rb"⟩).withDefault
      "filled" .true
    let unnamed := ((Context.bare .method "Spec#draw" 1).withSource ⟨"spec/shape.rb"⟩).withDefault
      "" .true
    let tree (contexts : List Context) :=
      (FileTree.empty.put [⟨"dump.json", by decide⟩] (Context.dump contexts).compact.toUTF8).put
        [⟨".smellguard.toml", by decide⟩] "suppressions.files = [\"spec/**\"]".toUTF8
    let request : AnalyzeRequest := ⟨⟨"dump.json"⟩, none, [], none, true, false⟩
    let surroundings : Surroundings := ⟨false, some "debug"⟩
    (Command.runRequest surroundings (tree [method]) (.analyze request)).code =
      (Command.runRequest surroundings (tree [unnamed, method]) (.analyze request)).code ∧
    (Command.runRequest surroundings (tree [method]) (.analyze request)).stdout =
      (Command.runRequest surroundings (tree [unnamed, method]) (.analyze request)).stdout ∧
    ∃ before after,
      (Command.runRequest surroundings (tree [unnamed, method]) (.analyze request)).stderr =
        before ++ "DEBUG loaded contexts files=1 contexts=1 suppressed=1\n" ++ after ∧
      (Command.runRequest surroundings (tree [method]) (.analyze request)).stderr =
        before ++ "DEBUG loaded contexts files=1 contexts=1 suppressed=0\n" ++ after := by
  intro method unnamed tree request surroundings
  obtain ⟨config, hparse, hglobs⟩ : ∃ config,
      Config.parse "suppressions.files = [\"spec/**\"]" = .ok config ∧
        config.suppressedFiles = ["spec/**"] := by
    have hfiles : (Config.parse "suppressions.files = [\"spec/**\"]").toOption.map
        Config.suppressedFiles = some ["spec/**"] := by decide +kernel
    obtain ⟨config, hconfig, hglobs⟩ := Option.map_eq_some_iff.1 hfiles
    exact ⟨config, toOption_eq_some_iff.1 hconfig, hglobs⟩
  have hloads (contexts : List Context) (hline : ∀ context ∈ contexts, context.line < 2 ^ 64)
      (hbare : ∀ context ∈ contexts, ∀ assignment ∈ context.defaultAssignments,
        assignment.value.value? = none) :
      Loads (tree contexts) request config [⟨"dump.json"⟩] [contexts] := by
    have hdump : (tree contexts).file? [⟨"dump.json", by decide⟩] =
        some (Context.dump contexts).compact.toUTF8 := by
      rw [FileTree.file?_put_of_ne _ _ (by decide), FileTree.file?_put_self]
    have hwalked := FileTree.resolve_of_file? ⟨"dump.json", by decide⟩ hdump rfl rfl rfl
    have hconfigured := FileTree.resolve_of_file? ⟨".smellguard.toml", by decide⟩
      (FileTree.file?_put_self
        (FileTree.empty.put [⟨"dump.json", by decide⟩] (Context.dump contexts).compact.toUTF8)
        [⟨".smellguard.toml", by decide⟩] "suppressions.files = [\"spec/**\"]".toUTF8) rfl rfl rfl
    have hcontents := Context.parseDump_dump_of_bare hline hbare
    exact ⟨Config.load_of_resolve hconfigured hparse, FileTree.discover_of_resolve hwalked,
      .cons (Context.load_of_resolve hwalked hcontents) .nil⟩
  have hboth : Loads (tree [unnamed, method]) request config [⟨"dump.json"⟩]
      [[unnamed, method]] := hloads _ (by decide +kernel) (by decide +kernel)
  have hone : Loads (tree [method]) request config [⟨"dump.json"⟩] [[method]] :=
    hloads _ (by decide +kernel) (by decide +kernel)
  have hspec : "spec/**" ∈ config.suppressedFiles := by
    rw [hglobs]
    exact List.mem_singleton_self _
  have hthinned : Thinned config [unnamed, method] [method] :=
    .leaveOut hspec (by decide +kernel) (.keep .nil)
  have hkept : (kept config [[unnamed, method]].flatten).length = 1 := by
    rw [kept, hglobs]
    decide +kernel
  obtain ⟨hcode, hstdout, -, hlines, -⟩ :=
    suppressed_contexts_have_no_influence surroundings hboth hone (.cons hthinned .nil)
  obtain ⟨before, after, suppressed, left, hcount, hcount', hsaid, hsaid'⟩ := hlines
  rw [hkept] at hcount hcount' hsaid hsaid'
  obtain rfl : suppressed = 1 := by
    rw [List.flatten_singleton, List.length_cons, List.length_singleton] at hcount
    omega
  obtain rfl : left = 0 := by
    rw [List.flatten_singleton, List.length_singleton] at hcount'
    omega
  have hfilter : LogFilter.ofSetting surroundings.log = ⟨[⟨none, 4⟩]⟩ := by
    have hword : "debug".splitOn "," = ["debug"] :=
      Text.splitOn_of_notMem rfl rfl (by decide) (by decide)
    simp only [surroundings, LogFilter.ofSetting, LogFilter.ofText?, Option.bind_some, hword]
    decide +kernel
  have hone_line : loadedLine ⟨[⟨none, 4⟩]⟩ 1 1 1 =
      "DEBUG loaded contexts files=1 contexts=1 suppressed=1\n" := by decide +kernel
  have hnone_line : loadedLine ⟨[⟨none, 4⟩]⟩ 1 1 0 =
      "DEBUG loaded contexts files=1 contexts=1 suppressed=0\n" := by decide +kernel
  rw [hfilter] at hsaid hsaid'
  refine ⟨hcode, hstdout, before, progressLine true 1 1 ++ after, ?_, ?_⟩
  · rw [← hone_line, ← String.append_assoc]
    exact hsaid
  · rw [← hnone_line, ← String.append_assoc]
    exact hsaid'

end Runs

end Analyze
end CodeSmells
