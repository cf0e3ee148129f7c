import CodeSmells.Proofs.Files.Dumps
import CodeSmells.Proofs.Stages

/-!
# The first failure of an analysis

Much may be wrong at once: the configuration, the path, several dumps, several
contexts.  Each is the failure of a *stage*, whatever the other stages do, and an
analysis fails with a failure of the first stage that fails.

**Results.**

* `FailsAt`: what fails a stage.
* `exists_stage_of_result`: the failure that is reported is one of the first stage that fails.
* `exists_ok_iff`: an analysis succeeds when no stage fails.
* `reached_examination_iff`: the examination is reached when everything is loaded.
* `failures_are_clean_and_ordered`: the outcome of a failure, and which failure it is.
-/

namespace CodeSmells

open Fallible

namespace Analyze

/-- The stages of an analysis that may fail. -/
inductive Stage where
  | configuration
  | walk
  /-- The dump at a place of those that the path names. -/
  | dump (place : Nat)
  | examination
deriving DecidableEq, Repr

/-- The order of the stages. -/
def Stage.Before : Stage → Stage → Prop
  | .configuration, .walk | .configuration, .dump _ | .configuration, .examination => True
  | .walk, .dump _ | .walk, .examination => True
  | .dump place, .dump later => place < later
  | .dump _, .examination => True
  | _, _ => False

/--
What fails a stage.  The walk fails whatever the configuration is, and a dump
whatever the configuration and the other dumps are.  A path cannot be walked if it
leads nowhere, or to a directory with one at or below it that cannot be opened.
-/
inductive FailsAt (tree : FileTree) (request : AnalyzeRequest) : Stage → CommandFailure → Prop
  | unreadableConfig {error : FileError} :
      tree.present (configPath request) = true →
      tree.readText (configPath request) = .error error →
      FailsAt tree request .configuration
        (.failed (.unreadableConfig (configPath request) error))
  | invalidConfig {text : String} {refusal : Toml.Refusal} :
      tree.present (configPath request) = true →
      tree.readText (configPath request) = .ok text →
      Config.parse text = .error refusal →
      FailsAt tree request .configuration
        (.failed (.invalidConfig (configPath request) text refusal))
  | unresolved {error : FileError} :
      tree.resolve request.path = .error error →
      FailsAt tree request .walk (.unwalkable request.path ⟨request.path, error⟩)
  | blocked {directory below : Location} :
      tree.resolve request.path = .ok (.directory directory) →
      tree.Blocked directory below →
      FailsAt tree request .walk
        (.unwalkable request.path ⟨FileTree.pathBelow request.path below, .denied⟩)
  | unreadableContexts {paths : List Path} {place : Nat} {path : Path} {error : FileError} :
      tree.discover request.path = .ok paths →
      paths[place]? = some path →
      tree.readText path = .error error →
      FailsAt tree request (.dump place) (.failed (.unreadableContexts path error))
  | invalidContexts {paths : List Path} {place : Nat} {path : Path} {text : String}
      {refusal : Json.Refusal} :
      tree.discover request.path = .ok paths →
      paths[place]? = some path →
      tree.readText path = .ok text →
      Context.parseDump text = .error refusal →
      FailsAt tree request (.dump place) (.failed (.invalidContexts path text refusal))
  | malformedContext {config : Config} {paths : List Path} {dumps : List (List Context)}
      {context : Context} :
      Loads tree request config paths dumps →
      context ∈ kept config dumps.flatten →
      Live request.smellTypes config context →
      ¬ BooleanParameter.Named context →
      FailsAt tree request .examination
        (.failed (.malformedContext "BooleanParameter" context.fullName
          "default assignment without a parameter name"))

section Stages

variable {tree : FileTree} {request : AnalyzeRequest} {failure : CommandFailure}

theorem failsAt_configuration_iff :
    FailsAt tree request .configuration failure ↔
      ∃ cause, Config.load tree (configPath request) = .error cause ∧
        failure = .failed cause := by
  constructor
  · intro h
    cases h with
    | unreadableConfig hpresent herror =>
        exact ⟨_, Config.load_eq_error_iff.2 ⟨hpresent, .inl ⟨_, herror, rfl⟩⟩, rfl⟩
    | invalidConfig hpresent htext hrefusal =>
        exact ⟨_, Config.load_eq_error_iff.2 ⟨hpresent, .inr ⟨_, _, htext, hrefusal, rfl⟩⟩, rfl⟩
  · rintro ⟨cause, hcause, rfl⟩
    obtain ⟨hpresent, ⟨error, herror, rfl⟩ | ⟨text, refusal, htext, hrefusal, rfl⟩⟩ :=
      Config.load_eq_error_iff.1 hcause
    · exact .unreadableConfig hpresent herror
    · exact .invalidConfig hpresent htext hrefusal

/-- A walk that ends early fails the stage. -/
theorem failsAt_walk_of_error {error : WalkError} (h : tree.discover request.path = .error error) :
    FailsAt tree request .walk (.unwalkable request.path error) := by
  cases hresolve : tree.resolve request.path with
  | error cause =>
      rw [FileTree.discover, hresolve] at h
      cases h
      exact .unresolved hresolve
  | ok entry =>
      cases entry with
      | file location bytes =>
          rw [FileTree.discover_of_resolve hresolve] at h
          cases h
      | sealed location =>
          rw [FileTree.discover_of_sealed hresolve] at h
          cases h
      | directory directory =>
          obtain ⟨below, hblocked, rfl⟩ := FileTree.discover_eq_error hresolve h
          exact .blocked hresolve hblocked

theorem failsAt_dump_iff {place : Nat} :
    FailsAt tree request (.dump place) failure ↔
      ∃ paths path cause, tree.discover request.path = .ok paths ∧ paths[place]? = some path ∧
        Context.load tree path = .error cause ∧ failure = .failed cause := by
  constructor
  · intro h
    cases h with
    | unreadableContexts hpaths hpath herror =>
        exact ⟨_, _, _, hpaths, hpath, Context.load_eq_error_iff.2 (.inl ⟨_, herror, rfl⟩), rfl⟩
    | invalidContexts hpaths hpath htext hrefusal =>
        exact ⟨_, _, _, hpaths, hpath,
          Context.load_eq_error_iff.2 (.inr ⟨_, _, htext, hrefusal, rfl⟩), rfl⟩
  · rintro ⟨paths, path, cause, hpaths, hpath, hcause, rfl⟩
    obtain ⟨error, herror, rfl⟩ | ⟨text, refusal, htext, hrefusal, rfl⟩ :=
      Context.load_eq_error_iff.1 hcause
    · exact .unreadableContexts hpaths hpath herror
    · exact .invalidContexts hpaths hpath htext hrefusal

/-- No stage before this one fails. -/
def Reached (tree : FileTree) (request : AnalyzeRequest) (stage : Stage) : Prop :=
  ∀ earlier failure, Stage.Before earlier stage → ¬ FailsAt tree request earlier failure

variable {config : Config} {paths : List Path} {dumps : List (List Context)}

theorem not_failsAt_configuration (hconfig : Config.load tree (configPath request) = .ok config) :
    ¬ FailsAt tree request .configuration failure := by
  rw [failsAt_configuration_iff, hconfig]
  rintro ⟨cause, ⟨⟩, -⟩

/-- A walk that finds dumps does not fail, so no directory on it is in the way. -/
theorem not_failsAt_walk (hpaths : tree.discover request.path = .ok paths) :
    ¬ FailsAt tree request .walk failure := by
  intro h
  cases h with
  | unresolved hresolve =>
      rw [FileTree.discover, hresolve] at hpaths
      cases hpaths
  | blocked hresolve hblocked =>
      have hopens := (FileTree.exists_discover_iff hresolve).1 ⟨paths, hpaths⟩
      have hblock := hblocked.blocked
      rw [hopens _ hblocked.isDirectory] at hblock
      cases hblock

theorem not_failsAt_dump {place : Nat} (hpaths : tree.discover request.path = .ok paths)
    (hloaded : ∀ path, paths[place]? = some path →
      ∃ contexts, Context.load tree path = .ok contexts) :
    ¬ FailsAt tree request (.dump place) failure := by
  rw [failsAt_dump_iff, hpaths]
  rintro ⟨_, path, cause, ⟨⟩, hpath, hcause, -⟩
  obtain ⟨contexts, hcontexts⟩ := hloaded path hpath
  rw [hcontexts] at hcause
  cases hcause

theorem reached_configuration : Reached tree request .configuration := by
  intro earlier failure hbefore
  cases earlier <;> exact hbefore.elim

theorem reached_walk (hconfig : Config.load tree (configPath request) = .ok config) :
    Reached tree request .walk := by
  intro earlier failure hbefore
  cases earlier with
  | configuration => exact not_failsAt_configuration hconfig
  | walk | dump _ | examination => exact hbefore.elim

/-- The first dump that is not loaded is a stage that is reached and fails. -/
theorem FirstRefused.reached {path : Path} {cause : Failure}
    (hconfig : Config.load tree (configPath request) = .ok config)
    (hpaths : tree.discover request.path = .ok paths)
    (hrefused : FirstRefused tree paths path cause) :
    ∃ place, Reached tree request (.dump place) ∧
      FailsAt tree request (.dump place) (.failed cause) := by
  obtain ⟨before, after, rfl, hbefore⟩ := hrefused.first
  refine ⟨before.length, ?_, ?_⟩
  · intro earlier failure hearlier
    cases earlier with
    | configuration => exact not_failsAt_configuration hconfig
    | walk => exact not_failsAt_walk hpaths
    | dump place =>
        -- An earlier place is one of the dumps that are loaded.
        have hlt : place < before.length := hearlier
        refine not_failsAt_dump hpaths fun path hpath => hbefore path ?_
        rw [List.getElem?_append_left hlt] at hpath
        exact List.mem_of_getElem? hpath
    | examination => exact hearlier.elim
  · refine failsAt_dump_iff.2 ⟨_, path, cause, hpaths, ?_, hrefused.refused, rfl⟩
    rw [List.getElem?_append_right (Nat.le_refl _), Nat.sub_self, List.getElem?_cons_zero]

/-- Once everything is loaded, the examination is reached. -/
theorem Loads.reached (h : Loads tree request config paths dumps) :
    Reached tree request .examination := by
  intro earlier failure hbefore
  cases earlier with
  | configuration => exact not_failsAt_configuration h.configured
  | walk => exact not_failsAt_walk h.walked
  | dump place =>
      refine not_failsAt_dump h.walked fun path hpath => ?_
      obtain ⟨contexts, -, hcontexts⟩ := exists_ok_of_mapM (mapM_eq_ok_iff.2 h.loaded) path
        (List.mem_of_getElem? hpath)
      exact ⟨contexts, hcontexts⟩
  | examination => exact hbefore.elim

/-- A context on which the examination fails fails it. -/
theorem Loads.failsAt {cause : Failure} (h : Loads tree request config paths dumps)
    (hcause : (registry request.smellTypes config).examineAll (kept config dumps.flatten) =
      .error cause) :
    FailsAt tree request .examination (.failed cause) := by
  by_cases hnamed : ∀ context ∈ kept config dumps.flatten,
      Live request.smellTypes config context → BooleanParameter.Named context
  · rw [examineAll_of_named hnamed] at hcause
    cases hcause
  · push Not at hnamed
    obtain ⟨context, hmem, hlive, hunnamed⟩ := hnamed
    obtain ⟨first, hfirst, hlive', hunnamed', hexamined⟩ :=
      examineAll_of_unnamed hmem hlive hunnamed
    rw [hexamined] at hcause
    cases hcause
    exact .malformedContext h hfirst hlive' hunnamed'

/-- The failure that is reported is one of the first stage that fails. -/
theorem exists_stage_of_result {colors : Bool}
    (h : (course tree request colors).result = .error failure) :
    ∃ stage, Reached tree request stage ∧ FailsAt tree request stage failure := by
  rcases course_cases tree request with ⟨cause, hconfig⟩ | ⟨config, error, hconfig, hpaths⟩ |
    ⟨config, paths, path, cause, hconfig, hpaths, hrefused⟩ | ⟨config, paths, dumps, hloads⟩
  · rw [course_of_config_error hconfig] at h
    cases h
    exact ⟨.configuration, reached_configuration, failsAt_configuration_iff.2 ⟨cause, hconfig, rfl⟩⟩
  · rw [course_of_unwalkable hconfig hpaths] at h
    cases h
    exact ⟨.walk, reached_walk hconfig, failsAt_walk_of_error hpaths⟩
  · rw [course_of_firstRefused hconfig hpaths hrefused] at h
    cases h
    obtain ⟨place, hreached, hfails⟩ := hrefused.reached hconfig hpaths
    exact ⟨.dump place, hreached, hfails⟩
  · rw [course_of_loads hloads] at h
    cases hexamined :
        (registry request.smellTypes config).examineAll (kept config dumps.flatten) with
    | ok warnings =>
        simp only [examine_result_of_ok colors hexamined] at h
        cases h
    | error cause =>
        simp only [examine_result_of_error colors hexamined] at h
        cases h
        exact ⟨.examination, hloads.reached, hloads.failsAt hexamined⟩

/-- An analysis fails if any stage does, though not always as that stage. -/
theorem exists_error_of_failsAt {stage : Stage} (h : FailsAt tree request stage failure)
    (colors : Bool) :
    ∃ reported, (course tree request colors).result = .error reported := by
  rcases course_cases tree request with ⟨cause, hconfig⟩ | ⟨config, error, hconfig, hpaths⟩ |
    ⟨config, paths, path, cause, hconfig, hpaths, hrefused⟩ | ⟨config, paths, dumps, hloads⟩
  · exact ⟨_, congrArg Course.result (course_of_config_error hconfig)⟩
  · exact ⟨_, congrArg Course.result (course_of_unwalkable hconfig hpaths)⟩
  · exact ⟨_, congrArg Course.result (course_of_firstRefused hconfig hpaths hrefused)⟩
  · -- Everything is loaded, so that only the examination is left to fail.
    cases stage with
    | configuration | walk | dump _ => exact absurd h (hloads.reached _ _ trivial)
    | examination =>
        cases h with
        | malformedContext hother hmem hlive hunnamed =>
            obtain ⟨rfl, rfl, rfl⟩ := hloads.unique hother
            obtain ⟨first, -, -, -, hexamined⟩ := examineAll_of_unnamed hmem hlive hunnamed
            rw [course_of_loads hloads]
            exact ⟨_, examine_result_of_error colors hexamined⟩

/-- An analysis succeeds if no stage fails, and only then. -/
theorem exists_ok_iff (colors : Bool) :
    (∃ success, (course tree request colors).result = .ok success) ↔
      ∀ stage failure, ¬ FailsAt tree request stage failure := by
  constructor
  · rintro ⟨success, hok⟩ stage failure hfails
    obtain ⟨reported, herror⟩ := exists_error_of_failsAt hfails colors
    rw [hok] at herror
    cases herror
  · intro hnone
    cases hresult : (course tree request colors).result with
    | ok success => exact ⟨success, rfl⟩
    | error failure =>
        obtain ⟨stage, -, hfails⟩ := exists_stage_of_result hresult
        exact absurd hfails (hnone stage failure)

/-- The examination is reached when everything is loaded. -/
theorem reached_examination_iff :
    Reached tree request .examination ↔
      ∃ config paths dumps, Loads tree request config paths dumps := by
  constructor
  · intro h
    rcases course_cases tree request with ⟨cause, hconfig⟩ | ⟨config, error, hconfig, hpaths⟩ |
      ⟨config, paths, path, cause, hconfig, hpaths, hrefused⟩ | hloads
    · exact absurd (failsAt_configuration_iff.2 ⟨cause, hconfig, rfl⟩) (h _ _ trivial)
    · exact absurd (failsAt_walk_of_error hpaths) (h .walk _ trivial)
    · obtain ⟨place, -, hfails⟩ := hrefused.reached hconfig hpaths
      exact absurd hfails (h _ _ trivial)
    · exact hloads
  · rintro ⟨config, paths, dumps, hloads⟩
    exact hloads.reached

end Stages

/--
A command line that asks for an analysis changes no file.  It shows lines of the log,
among them the progress where all stages before the examination have succeeded, unless
it is to be quiet, and last the failure if there is one.  If the analysis fails, it
leaves no text, has exit status 1 and reports a failure of the first stage that fails;
if no stage fails, it succeeds.
-/
theorem failures_are_clean_and_ordered (surroundings : Surroundings) (tree : FileTree)
    {arguments : List String} {request : AnalyzeRequest}
    (h : Request.ofArguments? arguments = some (.analyze request)) :
    let outcome := Command.run surroundings tree arguments
    let course := course tree request surroundings.colors
    outcome.files = tree ∧
    (∃ before progress after, Announces tree request progress ∧
      outcome.stderr =
        logLines before ++ progress ++ logLines after ++ Course.ending course.result) ∧
    (∀ failure, course.result = .error failure →
      outcome.code = 1 ∧ outcome.stdout = "" ∧
        ∃ stage, Reached tree request stage ∧ FailsAt tree request stage failure) ∧
    ((∀ stage failure, ¬ FailsAt tree request stage failure) ↔
      ∃ success, course.result = .ok success ∧
        outcome.code = success.code ∧ outcome.stdout = success.stdout) ∧
    (∀ text, .progress text ∈ course.notices ↔
      request.quiet = false ∧ ∃ config paths dumps, Loads tree request config paths dumps ∧
        text = "Examining " ++ toString (kept config dumps.flatten).length ++
          " contexts from " ++ toString paths.length ++ " files...\n") ∧
    (Reached tree request .examination ↔
      ∃ config paths dumps, Loads tree request config paths dumps) ∧
    (tree.present (configPath request) = false →
      Config.load tree (configPath request) = .ok Config.default) ∧
    (∀ paths, tree.discover request.path = .ok paths →
      paths.Pairwise fun a b => (Path.order a b).isLE = true) ∧
    ∀ path error, tree.readText path = .error error ↔
      tree.resolve path = .error error ∨
      (∃ location, tree.resolve path = .ok (.sealed location) ∧ error = .denied) ∨
      (∃ location, tree.resolve path = .ok (.directory location) ∧
        error = if tree.allows .read location then .isDirectory else .denied) ∨
      ∃ location bytes, tree.resolve path = .ok (.file location bytes) ∧
        ¬ bytes.IsValidUTF8 ∧ error = .notText := by
  intro outcome course
  have houtcome : outcome = course.outcome (.ofSetting surroundings.log) tree :=
    Command.run_of_request h surroundings tree
  refine ⟨?_, ?_, ?_, ?_, fun _ => progress_mem_course_iff, reached_examination_iff, ?_,
    fun _ => FileTree.pairwise_discover, fun _ _ => FileTree.readText_eq_error_iff⟩
  · rw [houtcome, Course.files_outcome]
  · rw [houtcome]
    exact exists_announced tree request surroundings.colors _ tree
  · intro failure hfailure
    rw [houtcome, Course.outcome_of_error hfailure]
    exact ⟨rfl, rfl, exists_stage_of_result hfailure⟩
  · rw [← exists_ok_iff surroundings.colors]
    refine exists_congr fun success => ⟨fun hok => ?_, fun hok => hok.1⟩
    have hresult : course.result = .ok success := hok
    rw [houtcome, Course.outcome_of_ok hresult]
    exact ⟨hresult, rfl, rfl⟩
  · intro habsent
    rw [Config.load, habsent]
    rfl

/-- Neither the configuration nor the path can be used; the configuration is reported. -/
theorem unreadable_configuration_and_missing_path :
    let config : Location := [⟨"etc", by decide⟩, ⟨"smells.toml", by decide⟩]
    let tree := ((FileTree.emptyAt [⟨"home", by decide⟩]).put config "".toUTF8).deny config .read
    let arguments := ["analyze", "-c", "../etc/smells.toml", "/missing"]
    let request : AnalyzeRequest :=
      ⟨⟨"/missing"⟩, none, [], some ⟨"../etc/smells.toml"⟩, false, false⟩
    let outcome := Command.run ⟨false, none⟩ tree arguments
    FailsAt tree request .walk (.unwalkable ⟨"/missing"⟩ ⟨⟨"/missing"⟩, .notFound⟩) ∧
    FailsAt tree request .configuration
      (.failed (.unreadableConfig ⟨"../etc/smells.toml"⟩ .denied)) ∧
    outcome.code = 1 ∧ outcome.stdout = "" ∧
    ∃ lines, outcome.stderr = logLines lines ++
      ("Error: Failed to read config ../etc/smells.toml: Permission denied (os error 13)\n\n" ++
        "Caused by:\n    Permission denied (os error 13)\n") := by
  intro config tree arguments request outcome
  have harguments : Request.ofArguments? arguments = some (.analyze request) := by
    decide +kernel
  let holding (bytes : ByteArray) :=
    ((FileTree.emptyAt [⟨"home", by decide⟩]).put config bytes).deny config .read
  have hwalk (bytes : ByteArray) : (holding bytes).resolve ⟨"/missing"⟩ = .error .notFound := by
    with_unfolding_all rfl
  have hsealed (bytes : ByteArray) :
      (holding bytes).resolve ⟨"../etc/smells.toml"⟩ = .ok (.sealed config) := by
    with_unfolding_all rfl
  have hpresent : tree.present (configPath request) = true :=
    FileTree.present_of_resolve (hsealed _)
  have htext : tree.readText (configPath request) = .error .denied :=
    FileTree.readText_eq_error_iff.2 (.inr (.inl ⟨_, hsealed _, rfl⟩))
  have hload := Config.load_eq_error_iff.2 ⟨hpresent, .inl ⟨_, htext, rfl⟩⟩
  have hresult : (course tree request false).result = .error
      (.failed (.unreadableConfig ⟨"../etc/smells.toml"⟩ .denied)) :=
    congrArg Course.result (course_of_config_error hload)
  obtain ⟨-, ⟨before, progress, after, hprogress, hstderr⟩, hfailed, -⟩ :=
    failures_are_clean_and_ordered ⟨false, none⟩ tree harguments
  obtain ⟨hcode, hstdout, -⟩ := hfailed _ hresult
  refine ⟨.unresolved (hwalk _), .unreadableConfig hpresent htext, hcode, hstdout,
    before ++ after, ?_⟩
  simp only [hresult] at hstderr
  cases hprogress with
  | progress hloads _ =>
      have hconfigured := hloads.configured
      rw [hload] at hconfigured
      cases hconfigured
  | quiet hquiet => cases hquiet
  | stopped _ =>
      rw [hstderr, String.append_empty, ← logLines_append]
      rfl

end Analyze
end CodeSmells
