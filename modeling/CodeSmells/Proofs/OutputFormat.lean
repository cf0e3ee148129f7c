import CodeSmells.Proofs.Files
import CodeSmells.Proofs.Stages
import CodeSmells.Proofs.Text.Lowercase

/-!
# The format of a report

The format that a command line asks for counts; without one the configured format
does, whose name may be spelled with capitals.  A configured name that is none of
a format is reported, once the contexts have been examined, and the report is text.

**Results.**

* `ofName?_lowercase_iff`: the names of a format, up to capitals.
* `resolveFormat_of_known`, `resolveFormat_of_unknown`: what a configured name gives.
* `course_of_examined`: the warning on the format is the last that an analysis says.
* `formatNotice_mem_iff`: when an analysis warns of the format.
* `format_is_resolved`: all of it.
-/

namespace CodeSmells

section Names

/-- The names of formats are made of letters with one capital each. -/
theorem OutputFormat.plain_name (format : OutputFormat) :
    ∀ letter ∈ format.name.toList, Text.Plain letter := by
  have hall : (format.name.toList.all fun letter => decide (Text.Plain letter)) = true := by
    cases format <;> decide
  exact fun letter hmem => of_decide_eq_true (List.all_eq_true.1 hall letter hmem)

/-- A text is a name of a format in lowercase exactly when it is spelled like this name. -/
theorem OutputFormat.ofName?_lowercase_iff {text : String} {format : OutputFormat} :
    ofName? (Text.lowercase text) = some format ↔ Text.IsCaseVariant text format.name := by
  rw [← Text.lowercase_eq_iff format.plain_name]
  generalize Text.lowercase text = name
  constructor
  · intro hfound
    have hname : (format.name == name) = true :=
      List.find?_some (p := fun format : OutputFormat => format.name == name) hfound
    exact (beq_iff_eq.1 hname).symm
  · rintro rfl
    cases format <;> decide

end Names

namespace Analyze

/-- The warning on a configured format, as the log shows its name. -/
def formatNotice (shown : String) : Notice :=
  record .warn ("Unknown output_format '" ++ shown ++ "' in config, using text")

section Resolution

variable {config : Config} {format : OutputFormat}

/-- A configured name of a format, up to capitals, gives this format. -/
theorem resolveFormat_of_known (h : Text.IsCaseVariant config.outputFormat format.name) :
    resolveFormat none config = (format, []) := by
  simp only [resolveFormat, OutputFormat.ofName?_lowercase_iff.2 h]

/-- Any other configured name gives text and a warning. -/
theorem resolveFormat_of_unknown
    (h : ∀ format : OutputFormat, ¬ Text.IsCaseVariant config.outputFormat format.name) :
    resolveFormat none config =
      (.text, [formatNotice (logText (Text.lowercase config.outputFormat))]) := by
  have hnone : OutputFormat.ofName? (Text.lowercase config.outputFormat) = none :=
    Option.eq_none_iff_forall_ne_some.2 fun format hfound =>
      h format (OutputFormat.ofName?_lowercase_iff.1 hfound)
  simp only [resolveFormat, hnone, formatNotice]

/-- A configured name is one of a format, or of none. -/
theorem known_or_unknown (config : Config) :
    (∃ format : OutputFormat, Text.IsCaseVariant config.outputFormat format.name) ∨
      ∀ format : OutputFormat, ¬ Text.IsCaseVariant config.outputFormat format.name :=
  exists_or_forall_not fun format : OutputFormat =>
    Text.IsCaseVariant config.outputFormat format.name

/-- JSON is configured by its name, up to capitals, and by nothing else. -/
theorem resolveFormat_json_iff :
    (resolveFormat none config).1 = .json ↔ Text.IsCaseVariant config.outputFormat "json" := by
  constructor
  · intro hjson
    rcases known_or_unknown config with ⟨format, hknown⟩ | hunknown
    · rw [resolveFormat_of_known hknown] at hjson
      cases hjson
      exact hknown
    · rw [resolveFormat_of_unknown hunknown] at hjson
      cases hjson
  · intro hname
    rw [@resolveFormat_of_known config .json hname]

theorem resolveFormat_text_iff :
    (resolveFormat none config).1 = .text ↔ ¬ Text.IsCaseVariant config.outputFormat "json" := by
  rw [← resolveFormat_json_iff]
  cases (resolveFormat none config).1 <;> simp

/-- There is a warning unless the name of a format is configured. -/
theorem mem_resolveFormat_iff {shown : String} :
    formatNotice shown ∈ (resolveFormat none config).2 ↔
      ¬ Text.IsCaseVariant config.outputFormat "json" ∧
        ¬ Text.IsCaseVariant config.outputFormat "text" ∧
        shown = logText (Text.lowercase config.outputFormat) := by
  rcases known_or_unknown config with ⟨format, hknown⟩ | hunknown
  · rw [resolveFormat_of_known hknown]
    constructor
    · nofun
    · rintro ⟨hjson, htext, -⟩
      cases format with
      | json => exact absurd hknown hjson
      | text => exact absurd hknown htext
  · rw [resolveFormat_of_unknown hunknown, List.mem_singleton]
    constructor
    · intro heq
      refine ⟨hunknown .json, hunknown .text, ?_⟩
      simpa [formatNotice, record] using heq
    · rintro ⟨-, -, rfl⟩
      rfl

/-- What is said on the format is that it is not known. -/
theorem exists_formatNotice_of_mem {asked : Option OutputFormat} {notice : Notice}
    (h : notice ∈ (resolveFormat asked config).2) : ∃ shown, notice = formatNotice shown := by
  cases asked with
  | some format => cases h
  | none =>
      simp only [resolveFormat] at h
      split at h
      next => cases h
      next => exact ⟨_, List.mem_singleton.1 h⟩

end Resolution

section Runs

variable {tree : FileTree} {request : AnalyzeRequest} {colors : Bool} {config : Config}
  {paths : List Path} {dumps : List (List Context)} {warnings : List Warning} {shown : String}

/-- Records that start with different characters are different. -/
theorem record_ne_of_head {level : LogLevel} {c d : Char} {cs ds : List Char} {text other : String}
    (htext : text.toList = c :: cs) (hother : other.toList = d :: ds) (hne : c ≠ d)
    (rest rest' : String) : record level (text ++ rest) ≠ record level (other ++ rest') := by
  intro heq
  have htexts : text ++ rest = other ++ rest' := by simpa [record] using heq
  have hlists := congrArg String.toList htexts
  rw [String.toList_append, String.toList_append, htext, hother, List.cons_append,
    List.cons_append] at hlists
  exact hne (List.cons.inj hlists).1

/-- The warnings on detectors are not on the format. -/
theorem formatNotice_notMem_unknown : formatNotice shown ∉ unknownDetectorNotices config := by
  intro hmem
  obtain ⟨name, -, heq⟩ := List.mem_map.1 hmem
  simp only [formatNotice, String.append_assoc] at heq
  exact record_ne_of_head rfl rfl (by decide) _ _ heq

/-- What is said of the loading of contexts is no warning. -/
theorem warning_notMem_loaded {text : String} {files examined suppressed : Nat} :
    record .warn text ∉ loadedNotices request files examined suppressed := by
  intro hmem
  rcases mem_loadedNotices.1 hmem with hrecord | ⟨-, hprogress⟩
  · cases hrecord
  · cases hprogress

/-- What is said of detectors at work is not said by the command itself. -/
theorem record_notMem_detectors {level : LogLevel} {text : String} {smellTypes : List SmellType}
    {pending : List (Detector × Context)} :
    record level text ∉ constructionNotices smellTypes config ++ runNotices pending := by
  intro hmem
  rcases List.mem_append.1 hmem with hbuilt | hrun
  · obtain ⟨other, hrecord⟩ := mem_constructionNotices hbuilt
    simp [record, detectorRecord] at hrecord
  · obtain ⟨other, hrecord⟩ := mem_runNotices hrun
    simp [record, detectorRecord] at hrecord

/-- An examination that succeeds ends with what there is to say on the format. -/
theorem notices_of_examined (colors : Bool) {contexts : List Context}
    (h : (registry request.smellTypes config).examineAll contexts = .ok warnings) :
    ∃ before, (examine request colors config contexts).notices =
        before ++ (resolveFormat request.format config).2 ∧
      ∀ shown, formatNotice shown ∉ before := by
  rw [registry] at h
  refine ⟨constructionNotices (SmellType.eligible request.smellTypes) config ++
    runNotices (runs (registry request.smellTypes config) contexts), ?_,
    fun _ => record_notMem_detectors⟩
  simp only [examine, h]
  rfl

/-- An examination that fails says nothing on the format. -/
theorem formatNotice_notMem_of_failed {contexts : List Context} {failure : Failure}
    (h : (registry request.smellTypes config).examineAll contexts = .error failure) :
    formatNotice shown ∉ (examine request colors config contexts).notices := by
  rw [registry] at h
  simp only [examine, h]
  exact record_notMem_detectors

/-- An analysis that comes to its end has said last what there is to say on the format. -/
theorem course_of_examined (colors : Bool) (hloads : Loads tree request config paths dumps)
    (hexamined : (registry request.smellTypes config).examineAll (kept config dumps.flatten) =
      .ok warnings) :
    (course tree request colors).result =
        .ok (success request (resolveFormat request.format config).1 colors
          (Report.ofWarnings (kept config dumps.flatten).length warnings)) ∧
      ∃ before, (course tree request colors).notices =
          before ++ (resolveFormat request.format config).2 ∧
        ∀ shown, formatNotice shown ∉ before := by
  obtain ⟨before, hnotices, hbefore⟩ := notices_of_examined colors hexamined
  rw [course_of_loads hloads]
  refine ⟨examine_result_of_ok colors hexamined, ?_⟩
  refine ⟨unknownDetectorNotices config ++ (loadedNotices request paths.length
      (kept config dumps.flatten).length
      (dumps.flatten.length - (kept config dumps.flatten).length) ++ before), ?_, fun shown => ?_⟩
  · simp only [hnotices, List.append_assoc]
  · simp only [List.mem_append, not_or]
    exact ⟨formatNotice_notMem_unknown, warning_notMem_loaded, hbefore shown⟩

/-- An analysis warns of the format only if it has examined the contexts. -/
theorem examined_of_formatNotice (h : formatNotice shown ∈ (course tree request colors).notices) :
    ∃ config paths dumps warnings, Loads tree request config paths dumps ∧
      (registry request.smellTypes config).examineAll (kept config dumps.flatten) =
        .ok warnings := by
  rcases course_cases tree request with ⟨failure, hconfig⟩ | ⟨config, error, hconfig, hpaths⟩ |
    ⟨config, paths, path, failure, hconfig, hpaths, hrefused⟩ | ⟨config, paths, dumps, hloads⟩
  · rw [course_of_config_error hconfig] at h
    cases h
  · rw [course_of_unwalkable hconfig hpaths] at h
    exact absurd h formatNotice_notMem_unknown
  · rw [course_of_firstRefused hconfig hpaths hrefused] at h
    exact absurd h formatNotice_notMem_unknown
  · cases hexamined :
        (registry request.smellTypes config).examineAll (kept config dumps.flatten) with
    | ok warnings => exact ⟨config, paths, dumps, warnings, hloads, hexamined⟩
    | error failure =>
        rw [course_of_loads hloads] at h
        rcases List.mem_append.1 h with hunknown | hlater
        · exact absurd hunknown formatNotice_notMem_unknown
        · rcases List.mem_append.1 hlater with hloaded | hlast
          · exact absurd hloaded warning_notMem_loaded
          · exact absurd hlast (formatNotice_notMem_of_failed hexamined)

/-- An analysis warns of the format if it comes to use one that is not known. -/
theorem formatNotice_mem_iff :
    formatNotice shown ∈ (course tree request colors).notices ↔
      request.format = none ∧ ∃ config paths dumps warnings,
        Loads tree request config paths dumps ∧
        (registry request.smellTypes config).examineAll (kept config dumps.flatten) =
          .ok warnings ∧
        ¬ Text.IsCaseVariant config.outputFormat "json" ∧
        ¬ Text.IsCaseVariant config.outputFormat "text" ∧
        shown = logText (Text.lowercase config.outputFormat) := by
  constructor
  · intro h
    obtain ⟨config, paths, dumps, warnings, hloads, hexamined⟩ := examined_of_formatNotice h
    obtain ⟨-, before, hnotices, hbefore⟩ := course_of_examined colors hloads hexamined
    rw [hnotices, List.mem_append, or_iff_right (hbefore shown)] at h
    cases hasked : request.format with
    | some format =>
        rw [hasked] at h
        cases h
    | none =>
        rw [hasked] at h
        exact ⟨rfl, config, paths, dumps, warnings, hloads, hexamined, mem_resolveFormat_iff.1 h⟩
  · rintro ⟨hasked, config, paths, dumps, warnings, hloads, hexamined, hunknown⟩
    obtain ⟨-, before, hnotices, -⟩ := course_of_examined colors hloads hexamined
    rw [hnotices, hasked]
    exact List.mem_append_right before (mem_resolveFormat_iff.2 hunknown)

end Runs

/-- The default log shows the warnings of an analysis. -/
theorem text_warning (text : String) :
    (record .warn text).text .default = "WARN " ++ text ++ "\n" := by
  have hshown : LogFilter.default.shows ⟨.warn, "smellguard::commands::analyze", text⟩ = true :=
    rfl
  rw [record, Notice.text, if_pos hshown]
  rfl

theorem text_formatNotice (shown : String) :
    (formatNotice shown).text .default =
      "WARN Unknown output_format '" ++ shown ++ "' in config, using text\n" := by
  rw [formatNotice, text_warning]
  simp only [String.append_assoc]
  rfl

/--
The format that is asked for counts, and there is no warning.  Without one, the
report is JSON if the configured format is spelled like `json` up to ASCII capitals,
and text otherwise, with a warning if it is not spelled like `text` either.  An
analysis that has examined the contexts writes its report in this format and has
said last what there is to say on it; no other analysis warns of a format.
-/
theorem format_is_resolved :
    (∀ (format : OutputFormat) (config : Config),
      resolveFormat (some format) config = (format, [])) ∧
    (∀ config : Config,
      ((resolveFormat none config).1 = .json ↔ Text.IsCaseVariant config.outputFormat "json") ∧
      ((resolveFormat none config).1 = .text ↔ ¬ Text.IsCaseVariant config.outputFormat "json") ∧
      (Text.IsCaseVariant config.outputFormat "json" ∨
          Text.IsCaseVariant config.outputFormat "text" → (resolveFormat none config).2 = []) ∧
      (¬ Text.IsCaseVariant config.outputFormat "json" →
        ¬ Text.IsCaseVariant config.outputFormat "text" →
          (resolveFormat none config).2 =
            [formatNotice (logText (Text.lowercase config.outputFormat))])) ∧
    (∀ shown, (formatNotice shown).text .default =
      "WARN Unknown output_format '" ++ shown ++ "' in config, using text\n") ∧
    ∀ (surroundings : Surroundings) (tree : FileTree) (arguments : List String)
      (request : AnalyzeRequest), Request.ofArguments? arguments = some (.analyze request) →
      let outcome := Command.run surroundings tree arguments
      let course := course tree request surroundings.colors
      outcome.stderr =
        String.join (course.notices.map (Notice.text (.ofSetting surroundings.log))) ++
          Course.closing course.result ∧
      (∀ config paths dumps warnings, Loads tree request config paths dumps →
        (registry request.smellTypes config).examineAll (kept config dumps.flatten) =
          .ok warnings →
        outcome.stdout = reportText request (resolveFormat request.format config).1
            surroundings.colors
            (Report.ofWarnings (kept config dumps.flatten).length warnings) ∧
          ∃ before, course.notices = before ++ (resolveFormat request.format config).2 ∧
            ∀ shown, formatNotice shown ∉ before) ∧
      ∀ shown, formatNotice shown ∈ course.notices ↔
        request.format = none ∧ ∃ config paths dumps warnings,
          Loads tree request config paths dumps ∧
          (registry request.smellTypes config).examineAll (kept config dumps.flatten) =
            .ok warnings ∧
          ¬ Text.IsCaseVariant config.outputFormat "json" ∧
          ¬ Text.IsCaseVariant config.outputFormat "text" ∧
          shown = logText (Text.lowercase config.outputFormat) := by
  refine ⟨fun _ _ => rfl, fun config => ⟨resolveFormat_json_iff, resolveFormat_text_iff, ?_, ?_⟩,
    text_formatNotice, ?_⟩
  · rintro (hjson | htext)
    · rw [@resolveFormat_of_known config .json hjson]
    · rw [@resolveFormat_of_known config .text htext]
  · intro hjson htext
    rw [resolveFormat_of_unknown]
    intro format
    cases format with
    | json => exact hjson
    | text => exact htext
  · intro surroundings tree arguments request hrequest outcome course
    have houtcome : outcome = course.outcome (.ofSetting surroundings.log) tree :=
      Command.run_of_request hrequest surroundings tree
    refine ⟨?_, ?_, fun shown => formatNotice_mem_iff⟩
    · rw [houtcome, Course.stderr_outcome]
    · intro config paths dumps warnings hloads hexamined
      obtain ⟨hresult, hnotices⟩ :=
        course_of_examined surroundings.colors hloads hexamined
      rw [houtcome, Course.outcome_of_ok hresult]
      exact ⟨rfl, hnotices⟩

/-- A configured format that is none is reported unless a format is asked for. -/
theorem format_of_two_runs :
    let tree := (FileTree.empty.put [⟨"dump.json", by decide⟩]
      (Context.dump []).compact.toUTF8).put [⟨".smellguard.toml", by decide⟩]
        "global.output_format = \"SARIF\"".toUTF8
    let request (format : Option OutputFormat) : AnalyzeRequest :=
      ⟨⟨"dump.json"⟩, format, [], none, true, false⟩
    let run (arguments : List String) := Command.run ⟨false, none⟩ tree arguments
    formatNotice "sarif" ∈ (course tree (request none) false).notices ∧
    (∀ shown, formatNotice shown ∉ (course tree (request (some .json)) false).notices) ∧
    (run ["analyze", "-q", "dump.json"]).stdout = "" ∧
    (run ["analyze", "-q", "-fjson", "dump.json"]).stdout = (Report.ofWarnings 0 []).json := by
  intro tree request run
  have htext : Request.ofArguments? ["analyze", "-q", "dump.json"] =
      some (.analyze (request none)) := by decide +kernel
  have hjson : Request.ofArguments? ["analyze", "-q", "-fjson", "dump.json"] =
      some (.analyze (request (some .json))) := by decide +kernel
  obtain ⟨config, hparse, hformat⟩ : ∃ config,
      Config.parse "global.output_format = \"SARIF\"" = .ok config ∧
        config.outputFormat = "SARIF" := by
    have hformat : (Config.parse "global.output_format = \"SARIF\"").toOption.map
        Config.outputFormat = some "SARIF" := by decide +kernel
    obtain ⟨config, hconfig, hname⟩ := Option.map_eq_some_iff.1 hformat
    exact ⟨config, Fallible.toOption_eq_some_iff.1 hconfig, hname⟩
  have hloads (format : Option OutputFormat) :
      Loads tree (request format) config [⟨"dump.json"⟩] [[]] := by
    have hdump : tree.file? [⟨"dump.json", by decide⟩] =
        some (Context.dump []).compact.toUTF8 := by
      rw [FileTree.file?_put_of_ne _ _ (by decide), FileTree.file?_put_self]
    have hwalked := FileTree.resolve_of_file? ⟨"dump.json", by decide⟩ hdump rfl rfl rfl
    have hconfigured := FileTree.resolve_of_file? ⟨".smellguard.toml", by decide⟩
      (FileTree.file?_put_self
        (FileTree.empty.put [⟨"dump.json", by decide⟩] (Context.dump []).compact.toUTF8)
        [⟨".smellguard.toml", by decide⟩] "global.output_format = \"SARIF\"".toUTF8) rfl rfl rfl
    exact ⟨Config.load_of_resolve hconfigured hparse, FileTree.discover_of_resolve hwalked,
      .cons (Context.load_of_resolve hwalked
        (Context.parseDump_dump_of_bare (by decide) (by decide))) .nil⟩
  have hexamined (format : Option OutputFormat) :
      (registry (request format).smellTypes config).examineAll (kept config [[]].flatten) =
        .ok [] := rfl
  have hunknown : ¬ Text.IsCaseVariant config.outputFormat "json" ∧
      ¬ Text.IsCaseVariant config.outputFormat "text" := by
    rw [hformat]
    decide +kernel
  obtain ⟨-, hresolved, -, hruns⟩ := format_is_resolved
  obtain ⟨-, hstdout, hwarns⟩ := hruns ⟨false, none⟩ tree _ _ htext
  obtain ⟨-, hstdout', hwarns'⟩ := hruns ⟨false, none⟩ tree _ _ hjson
  refine ⟨(hwarns "sarif").2 ⟨rfl, config, _, _, _, hloads none, hexamined none, hunknown.1,
    hunknown.2, by rw [hformat]; decide +kernel⟩, fun shown hmem => ?_, ?_, ?_⟩
  · obtain ⟨hnone, -⟩ := (hwarns' shown).1 hmem
    cases hnone
  · refine (hstdout config _ _ _ (hloads none) (hexamined none)).1.trans ?_
    have hquiet : (Report.ofWarnings 0 []).text true false = "" := by decide +kernel
    rw [(hresolved config).2.1.2 hunknown.1]
    exact hquiet
  · exact (hstdout' config _ _ _ (hloads (some .json)) (hexamined (some .json))).1

end Analyze
end CodeSmells
