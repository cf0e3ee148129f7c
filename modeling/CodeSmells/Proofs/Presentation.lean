import CodeSmells.Proofs.Stages

/-!
# How a report is presented

The format of a report, its banner and its colors, and the records that the log
shows, are a matter of presentation.  They depend on the command line and on the
surroundings of the program; what is analysed, and with which outcome, does not.

**Results.**

* `result_cases`: an analysis has one failure or one report, however it is presented.
* `stdout_of_json`, `stdout_of_text`: what the text of an analysis depends on.
* `presentation_has_no_influence`: analyses that differ in presentation only.
-/

namespace CodeSmells

/-- Two requests ask for the same analysis, however its report is to be presented. -/
structure AnalyzeRequest.SameAnalysis (request other : AnalyzeRequest) : Prop where
  path : other.path = request.path
  smellTypes : other.smellTypes = request.smellTypes
  config : other.config = request.config

namespace Analyze

section Results

variable {tree : FileTree} {request other : AnalyzeRequest} {config : Config}
  {paths : List Path} {dumps : List (List Context)}

theorem configPath_of_sameAnalysis (h : request.SameAnalysis other) :
    configPath other = configPath request := by
  rw [configPath, configPath, h.config]

/-- Requests for the same analysis load the same. -/
theorem Loads.of_sameAnalysis (hloads : Loads tree request config paths dumps)
    (h : request.SameAnalysis other) : Loads tree other config paths dumps where
  configured := by
    rw [configPath_of_sameAnalysis h]
    exact hloads.configured
  walked := by
    rw [h.path]
    exact hloads.walked
  loaded := hloads.loaded

/-- An analysis fails in one way, or has one report, however it is presented. -/
theorem result_cases (tree : FileTree) (request : AnalyzeRequest) :
    (∃ failure, ∀ other colors, request.SameAnalysis other →
      (course tree other colors).result = .error failure) ∨
    ∃ config report, Config.load tree (configPath request) = .ok config ∧
      ∀ other colors, request.SameAnalysis other →
        (course tree other colors).result =
          .ok (success other (resolveFormat other.format config).1 colors report) := by
  rcases course_cases tree request with ⟨failure, hconfig⟩ | ⟨config, error, hconfig, hpaths⟩ |
    ⟨config, paths, path, failure, hconfig, hpaths, hrefused⟩ | ⟨config, paths, dumps, hloads⟩
  · refine .inl ⟨.failed failure, fun other colors h => ?_⟩
    rw [← configPath_of_sameAnalysis h] at hconfig
    rw [course_of_config_error hconfig]
  · refine .inl ⟨.unwalkable request.path error, fun other colors h => ?_⟩
    rw [← configPath_of_sameAnalysis h] at hconfig
    rw [← h.path] at hpaths
    rw [course_of_unwalkable hconfig hpaths, h.path]
  · refine .inl ⟨.failed failure, fun other colors h => ?_⟩
    rw [← configPath_of_sameAnalysis h] at hconfig
    rw [← h.path] at hpaths
    rw [course_of_firstRefused hconfig hpaths hrefused]
  · cases hexamined :
        (registry request.smellTypes config).examineAll (kept config dumps.flatten) with
    | error failure =>
        refine .inl ⟨.failed failure, fun other colors h => ?_⟩
        rw [← h.smellTypes] at hexamined
        rw [course_of_loads (hloads.of_sameAnalysis h)]
        exact examine_result_of_error colors hexamined
    | ok warnings =>
        refine .inr ⟨config, Report.ofWarnings (kept config dumps.flatten).length warnings,
          hloads.configured, fun other colors h => ?_⟩
        rw [← h.smellTypes] at hexamined
        rw [course_of_loads (hloads.of_sameAnalysis h)]
        exact examine_result_of_ok colors hexamined

end Results

section Texts

variable {request other : AnalyzeRequest} {colors bright : Bool}

/-- A report as JSON has one text. -/
theorem stdout_of_json (report : Report) :
    (success other .json bright report).stdout = (success request .json colors report).stdout :=
  rfl

/-- A report as text has one text for each way to be quiet and to have colors. -/
theorem stdout_of_text (report : Report) (hquiet : other.quiet = request.quiet)
    (hcolors : (bright && !other.noColor) = (colors && !request.noColor)) :
    (success other .text bright report).stdout = (success request .text colors report).stdout := by
  simp only [success, reportText, hquiet, hcolors]

end Texts

/--
Two command lines that ask for the same analysis, in whatever format, quiet or
not, with or without colors and with any setting of the log, have the same exit
status, and both fail in the same way or both succeed.  Reports as JSON are the
same bytes; reports as text are, if both are quiet or both are not, and both have
colors or both have none.  The setting of the log never shows in the text.
-/
theorem presentation_has_no_influence (tree : FileTree) (surroundings around : Surroundings)
    {arguments others : List String} {request other : AnalyzeRequest}
    (hrequest : Request.ofArguments? arguments = some (.analyze request))
    (hother : Request.ofArguments? others = some (.analyze other))
    (hsame : request.SameAnalysis other) :
    let outcome := Command.run surroundings tree arguments
    let outcome' := Command.run around tree others
    let result := (course tree request surroundings.colors).result
    let result' := (course tree other around.colors).result
    outcome'.code = outcome.code ∧
    (∀ failure, result = .error failure ↔ result' = .error failure) ∧
    (∀ failure, result = .error failure → outcome.stdout = "" ∧ outcome'.stdout = "" ∧
      ∃ notices notices', outcome.stderr = notices ++ failure.text ∧
        outcome'.stderr = notices' ++ failure.text) ∧
    (∀ log, (Command.run { surroundings with log } tree arguments).stdout = outcome.stdout) ∧
    ∀ config, Config.load tree (configPath request) = .ok config →
      ((resolveFormat request.format config).1 = .json →
        (resolveFormat other.format config).1 = .json → outcome'.stdout = outcome.stdout) ∧
      ((resolveFormat request.format config).1 = .text →
        (resolveFormat other.format config).1 = .text → other.quiet = request.quiet →
        (around.colors && !other.noColor) = (surroundings.colors && !request.noColor) →
        outcome'.stdout = outcome.stdout) := by
  intro outcome outcome' result result'
  have houtcome : outcome = (course tree request surroundings.colors).outcome
      (.ofSetting surroundings.log) tree := Command.run_of_request hrequest surroundings tree
  have houtcome' : outcome' = (course tree other around.colors).outcome
      (.ofSetting around.log) tree := Command.run_of_request hother around tree
  have hlog : ∀ log, (Command.run { surroundings with log } tree arguments).stdout =
      outcome.stdout := by
    intro log
    rw [houtcome, Command.run_of_request hrequest, Command.runRequest, Course.outcome,
      Course.outcome]
    cases (course tree request surroundings.colors).result <;> rfl
  rcases result_cases tree request with ⟨failure, hfails⟩ | ⟨config, report, hconfig, hsucceeds⟩
  · have hresult : result = .error failure := hfails request surroundings.colors ⟨rfl, rfl, rfl⟩
    have hresult' : result' = .error failure := hfails other around.colors hsame
    rw [houtcome, Course.outcome_of_error hresult] at hlog ⊢
    rw [houtcome', Course.outcome_of_error hresult']
    refine ⟨rfl, fun _ => by rw [hresult, hresult'], ?_, hlog, fun _ _ => ⟨?_, ?_⟩⟩
    · intro reported hreported
      rw [hresult] at hreported
      cases hreported
      exact ⟨rfl, rfl, _, _, rfl, rfl⟩
    · exact fun _ _ => rfl
    · exact fun _ _ _ _ => rfl
  · have hresult : result = .ok _ := hsucceeds request surroundings.colors ⟨rfl, rfl, rfl⟩
    have hresult' : result' = .ok _ := hsucceeds other around.colors hsame
    rw [houtcome, Course.outcome_of_ok hresult] at hlog ⊢
    rw [houtcome', Course.outcome_of_ok hresult']
    refine ⟨rfl, fun _ => by simp [hresult, hresult'], ?_, hlog, ?_⟩
    · intro failure hfailure
      rw [hresult] at hfailure
      cases hfailure
    · intro loaded hloaded
      rw [hconfig] at hloaded
      cases hloaded
      constructor
      · intro hjson hjson'
        simp only [hjson, hjson']
        exact stdout_of_json report
      · intro htext htext' hquiet hcolors
        simp only [htext, htext']
        exact stdout_of_text report hquiet hcolors

/--
A dump is analysed twice as JSON and twice as text, with other surroundings and
other flags each time.
-/
theorem presentations_of_one_dump :
    let method := (Context.bare .method "Shape#draw" 7).withDefault "filled" .true
    let tree := FileTree.empty.put [⟨"dump.json", by decide⟩]
      (Context.dump [method]).compact.toUTF8
    let json := ["analyze", "dump.json", "-fjson"]
    let quietJson := ["analyze", "--format", "json", "-q", "--no-color", "dump.json"]
    let text := ["analyze", "dump.json"]
    let plainText := ["analyze", "--no-color", "dump.json"]
    (Command.run ⟨true, some "trace"⟩ tree quietJson).code =
      (Command.run ⟨false, none⟩ tree json).code ∧
    (Command.run ⟨true, some "trace"⟩ tree quietJson).stdout =
      (Command.run ⟨false, none⟩ tree json).stdout ∧
    (Command.run ⟨false, some "off"⟩ tree text).code =
      (Command.run ⟨false, none⟩ tree json).code ∧
    (Command.run ⟨true, none⟩ tree plainText).code =
      (Command.run ⟨false, some "off"⟩ tree text).code ∧
    (Command.run ⟨true, none⟩ tree plainText).stdout =
      (Command.run ⟨false, some "off"⟩ tree text).stdout := by
  intro method tree json quietJson text plainText
  let request (format : Option OutputFormat) (quiet noColor : Bool) : AnalyzeRequest :=
    ⟨⟨"dump.json"⟩, format, [], none, quiet, noColor⟩
  have hjson : Request.ofArguments? json =
      some (.analyze (request (some .json) false false)) := by decide +kernel
  have hquietJson : Request.ofArguments? quietJson =
      some (.analyze (request (some .json) true true)) := by decide +kernel
  have htext : Request.ofArguments? text =
      some (.analyze (request none false false)) := by decide +kernel
  have hplainText : Request.ofArguments? plainText =
      some (.analyze (request none false true)) := by decide +kernel
  have hconfig : Config.load tree (configPath (request none false false)) =
      .ok Config.default := by
    have habsent : tree.present (configPath (request none false false)) = false := by
      decide +kernel
    rw [Config.load, habsent]
    rfl
  have hformat : (resolveFormat none Config.default).1 = .text := by decide +kernel
  obtain ⟨hjsonCode, -, -, -, hjsonStdout⟩ := presentation_has_no_influence tree ⟨false, none⟩
    ⟨true, some "trace"⟩ hjson hquietJson ⟨rfl, rfl, rfl⟩
  obtain ⟨hcode, -⟩ := presentation_has_no_influence tree ⟨false, none⟩
    ⟨false, some "off"⟩ hjson htext ⟨rfl, rfl, rfl⟩
  obtain ⟨htextCode, -, -, -, htextStdout⟩ := presentation_has_no_influence tree
    ⟨false, some "off"⟩ ⟨true, none⟩ htext hplainText ⟨rfl, rfl, rfl⟩
  exact ⟨hjsonCode, (hjsonStdout Config.default hconfig).1 rfl rfl, hcode, htextCode,
    (htextStdout Config.default hconfig).2 hformat hformat rfl rfl⟩

end Analyze
end CodeSmells
