import CodeSmells.Proofs.Analysis

/-!
# The stages of an analysis

An analysis loads the configuration, walks the path, loads the dumps and
examines the contexts that are kept.  It ends at the first stage that fails, and
what it says depends on how far it comes.

**Results.**

* `stderr_outcome`: what a command says in all.
* `run_of_request`: a command line has the outcome of what it asks for.
* `course_cases`: how far an analysis comes.
* `course_of_config_error`, `course_of_unwalkable`, `course_of_firstRefused`,
  `course_of_loads`: the course in each case.
* `progress_mem_course_iff`: the progress is shown when everything is loaded.
* `loadedNotice_of_mem_course`: the debugging record of the command shows what is loaded.
* `exists_stderr_of_examine`, `exists_announced`: the lines that an analysis shows.
-/

namespace CodeSmells

namespace Course

variable {course other : Course}

/-- The exit status and the text of a command depend on its result alone. -/
theorem outcome_of_result (h : course.result = other.result) (filter : LogFilter)
    (files later : FileTree) :
    (course.outcome filter files).code = (other.outcome filter later).code ∧
      (course.outcome filter files).stdout = (other.outcome filter later).stdout := by
  simp only [outcome, h]
  cases other.result with
  | ok success => exact ⟨rfl, rfl⟩
  | error failure => exact ⟨rfl, rfl⟩

theorem outcome_of_ok {success : Success} (h : course.result = .ok success) (filter : LogFilter)
    (files : FileTree) :
    course.outcome filter files = ⟨success.code, success.stdout,
      String.join (course.notices.map (Notice.text filter)), files⟩ := by
  rw [outcome, h]

theorem outcome_of_error {failure : CommandFailure} (h : course.result = .error failure)
    (filter : LogFilter) (files : FileTree) :
    course.outcome filter files = ⟨1, "",
      String.join (course.notices.map (Notice.text filter)) ++ failure.text, files⟩ := by
  rw [outcome, h]

/-- A course leaves the files that its command gives it. -/
theorem files_outcome (course : Course) (filter : LogFilter) (files : FileTree) :
    (course.outcome filter files).files = files := by
  rw [outcome]
  cases course.result <;> rfl

/-- What is said of a result: only failures have a text. -/
def closing : Except CommandFailure Success → String
  | .ok _ => ""
  | .error failure => failure.text

/-- The notices come first, then the failure. -/
theorem stderr_outcome (course : Course) (filter : LogFilter) (files : FileTree) :
    (course.outcome filter files).stderr =
      String.join (course.notices.map (Notice.text filter)) ++ closing course.result := by
  rw [outcome]
  cases course.result with
  | ok success => exact String.append_empty.symm
  | error failure => rfl

/-- How a result is shown: a failure in full. -/
def ending : Except CommandFailure Success → String
  | .ok _ => ""
  | .error failure => failure.told

theorem closing_eq_ending (result : Except CommandFailure Success) :
    closing result = ending result := by
  cases result with
  | ok success => rfl
  | error failure => exact failure.text_eq_told

end Course

/-- The lines of records of the log. -/
def logLines (records : List LogRecord) : String :=
  String.join (records.map fun record => record.level.label ++ " " ++ record.text ++ "\n")

theorem logLines_append (records more : List LogRecord) :
    logLines (records ++ more) = logLines records ++ logLines more := by
  rw [logLines, List.map_append, String.join_append, logLines, logLines]

/-- Notices that are all records are shown as lines of the log. -/
theorem exists_logLines {notices : List Notice} (filter : LogFilter)
    (h : ∀ notice ∈ notices, ∃ record, notice = .log record) :
    ∃ records, String.join (notices.map (Notice.text filter)) = logLines records := by
  induction notices with
  | nil => exact ⟨[], rfl⟩
  | cons notice notices ih =>
      obtain ⟨⟨record, rfl⟩, hrest⟩ := List.forall_mem_cons.1 h
      obtain ⟨records, hrecords⟩ := ih hrest
      rw [List.map_cons, String.join_cons, hrecords, Notice.text]
      split
      · refine ⟨record :: records, ?_⟩
        rw [logLines, logLines, List.map_cons, String.join_cons, LogRecord.line]
      · exact ⟨records, String.empty_append⟩

/-- A command line that asks for something has the outcome of what it asks for. -/
theorem Command.run_of_request {arguments : List String} {request : Request}
    (h : Request.ofArguments? arguments = some request) (surroundings : Surroundings)
    (tree : FileTree) :
    run surroundings tree arguments = runRequest surroundings tree request := by
  rw [run, h]

namespace Analyze

open Fallible

section Notices

variable {notice : Notice} {config : Config}

theorem mem_unknownDetectorNotices (h : notice ∈ unknownDetectorNotices config) :
    ∃ text, notice = record .warn text := by
  obtain ⟨name, -, rfl⟩ := List.mem_map.1 h
  exact ⟨_, rfl⟩

theorem mem_constructionNotices {smellTypes : List SmellType}
    (h : notice ∈ constructionNotices smellTypes config) :
    ∃ text, notice = detectorRecord .debug text := by
  obtain ⟨smellType, -, rfl⟩ := List.mem_map.1 h
  exact ⟨_, rfl⟩

theorem mem_runNotices {pending : List (Detector × Context)} (h : notice ∈ runNotices pending) :
    ∃ text, notice = detectorRecord .trace text := by
  induction pending with
  | nil => cases h
  | cons first rest ih =>
      obtain ⟨detector, context⟩ := first
      rw [runNotices] at h
      rcases List.mem_cons.1 h with rfl | hlater
      · exact ⟨_, rfl⟩
      · cases hrun : detector.run context with
        | ok warnings =>
            rw [hrun] at hlater
            exact ih hlater
        | error failure =>
            rw [hrun] at hlater
            cases hlater

theorem mem_formatNotices {asked : Option OutputFormat}
    (h : notice ∈ (resolveFormat asked config).2) : ∃ text, notice = record .warn text := by
  cases asked with
  | some format => cases h
  | none =>
      simp only [resolveFormat] at h
      split at h
      next => cases h
      next => exact ⟨_, List.mem_singleton.1 h⟩

/-- An examination leaves records of detectors, and at most a warning on the format. -/
theorem mem_examineNotices {request : AnalyzeRequest} {colors : Bool} {contexts : List Context}
    (h : notice ∈ (examine request colors config contexts).notices) :
    (∃ level text, notice = detectorRecord level text) ∨ ∃ text, notice = record .warn text := by
  have hdetectors : notice ∈ constructionNotices (SmellType.eligible request.smellTypes) config ++
      runNotices (runs (registry request.smellTypes config) contexts) →
      ∃ level text, notice = detectorRecord level text := by
    intro hmem
    rcases List.mem_append.1 hmem with hbuilt | hrun
    · exact ⟨_, mem_constructionNotices hbuilt⟩
    · exact ⟨_, mem_runNotices hrun⟩
  simp only [examine] at h
  split at h
  next => exact .inl (hdetectors h)
  next =>
    rcases List.mem_append.1 h with hmem | hformat
    · exact .inl (hdetectors hmem)
    · exact .inr (mem_formatNotices hformat)

end Notices

section Courses

variable {tree : FileTree} {request : AnalyzeRequest} {config : Config} {paths : List Path}
  {dumps : List (List Context)} {colors : Bool}

/-- Everything that an analysis needs is loaded. -/
structure Loads (tree : FileTree) (request : AnalyzeRequest) (config : Config)
    (paths : List Path) (dumps : List (List Context)) : Prop where
  configured : Config.load tree (configPath request) = .ok config
  walked : tree.discover request.path = .ok paths
  loaded : List.Forall₂ (fun path contexts => Context.load tree path = .ok contexts) paths dumps

/-- What is loaded is determined by the files and the request. -/
theorem Loads.unique {other : Config} {others : List Path} {contents : List (List Context)}
    (h : Loads tree request config paths dumps)
    (h' : Loads tree request other others contents) :
    other = config ∧ others = paths ∧ contents = dumps := by
  have hconfig := h'.configured
  have hpaths := h'.walked
  rw [h.configured] at hconfig
  rw [h.walked] at hpaths
  cases hconfig
  cases hpaths
  have hcontents := mapM_eq_ok_iff.2 h'.loaded
  rw [mapM_eq_ok_iff.2 h.loaded] at hcontents
  cases hcontents
  exact ⟨rfl, rfl, rfl⟩

/-- A dump is the first one that is not loaded. -/
structure FirstRefused (tree : FileTree) (paths : List Path) (path : Path)
    (failure : Failure) : Prop where
  first : ∃ before after, paths = before ++ path :: after ∧
    ∀ earlier ∈ before, ∃ contexts, Context.load tree earlier = .ok contexts
  refused : Context.load tree path = .error failure

theorem loadAll_eq_error_iff {failure : Failure} :
    loadAll tree paths = .error failure ↔ ∃ path, FirstRefused tree paths path failure := by
  rw [loadAll, map_eq_error_iff, mapM_eq_error_iff]
  constructor
  · rintro ⟨before, path, after, hsplit, hbefore, hfailure⟩
    exact ⟨path, ⟨before, after, hsplit, hbefore⟩, hfailure⟩
  · rintro ⟨path, ⟨before, after, hsplit, hbefore⟩, hfailure⟩
    exact ⟨before, path, after, hsplit, hbefore, hfailure⟩

theorem course_of_config_error {failure : Failure}
    (h : Config.load tree (configPath request) = .error failure) :
    course tree request colors = ⟨[], .error (.failed failure)⟩ := by
  rw [course, h]

theorem course_of_unwalkable {error : WalkError}
    (hconfig : Config.load tree (configPath request) = .ok config)
    (hpaths : tree.discover request.path = .error error) :
    course tree request colors =
      ⟨unknownDetectorNotices config, .error (.unwalkable request.path error)⟩ := by
  rw [course, hconfig]
  simp only [hpaths]

theorem course_of_firstRefused {path : Path} {failure : Failure}
    (hconfig : Config.load tree (configPath request) = .ok config)
    (hpaths : tree.discover request.path = .ok paths)
    (hrefused : FirstRefused tree paths path failure) :
    course tree request colors =
      ⟨unknownDetectorNotices config, .error (.failed failure)⟩ := by
  rw [course, hconfig]
  simp only [hpaths, loadAll_eq_error_iff.2 ⟨path, hrefused⟩]

/-- What an analysis says once everything is loaded, before it examines anything. -/
def loadedNotices (request : AnalyzeRequest) (files examined suppressed : Nat) : List Notice :=
  loadedNotice files examined suppressed ::
    (if request.quiet then [] else [progressNotice examined files])

theorem mem_loadedNotices {notice : Notice} {files examined suppressed : Nat} :
    notice ∈ loadedNotices request files examined suppressed ↔
      notice = loadedNotice files examined suppressed ∨
        request.quiet = false ∧ notice = progressNotice examined files := by
  cases hquiet : request.quiet <;> simp [loadedNotices, hquiet]

theorem course_of_loads (h : Loads tree request config paths dumps) :
    course tree request colors =
      ⟨unknownDetectorNotices config ++
        (loadedNotices request paths.length (kept config dumps.flatten).length
            (dumps.flatten.length - (kept config dumps.flatten).length) ++
          (examine request colors config (kept config dumps.flatten)).notices),
        (examine request colors config (kept config dumps.flatten)).result⟩ := by
  rw [course, h.configured]
  simp only [h.walked, loadAll_of_loaded h.loaded, examineLoaded, kept_eq, loadedNotices,
    List.cons_append]

/-- An analysis ends at the first stage that fails, or comes to the examination. -/
theorem course_cases (tree : FileTree) (request : AnalyzeRequest) :
    (∃ failure, Config.load tree (configPath request) = .error failure) ∨
    (∃ config error, Config.load tree (configPath request) = .ok config ∧
      tree.discover request.path = .error error) ∨
    (∃ config paths path failure, Config.load tree (configPath request) = .ok config ∧
      tree.discover request.path = .ok paths ∧ FirstRefused tree paths path failure) ∨
    ∃ config paths dumps, Loads tree request config paths dumps := by
  cases hconfig : Config.load tree (configPath request) with
  | error failure => exact .inl ⟨failure, rfl⟩
  | ok config =>
      refine .inr ?_
      cases hpaths : tree.discover request.path with
      | error error => exact .inl ⟨config, error, rfl, rfl⟩
      | ok paths =>
          refine .inr ?_
          cases hdumps : paths.mapM (Context.load tree) with
          | error failure =>
              obtain ⟨path, hrefused⟩ := loadAll_eq_error_iff.1 (map_eq_error_iff.2 hdumps)
              exact .inl ⟨config, paths, path, failure, rfl, rfl, hrefused⟩
          | ok dumps => exact .inr ⟨config, paths, dumps, hconfig, hpaths, mapM_eq_ok_iff.1 hdumps⟩

/-- What an analysis says: warnings, records of detectors, and what it has loaded. -/
theorem notice_cases {notice : Notice} (h : notice ∈ (course tree request colors).notices) :
    (∃ text, notice = record .warn text) ∨ (∃ level text, notice = detectorRecord level text) ∨
      ∃ config paths dumps, Loads tree request config paths dumps ∧
        notice ∈ loadedNotices request paths.length (kept config dumps.flatten).length
          (dumps.flatten.length - (kept config dumps.flatten).length) := by
  rcases course_cases tree request with ⟨failure, hconfig⟩ | ⟨config, error, hconfig, hpaths⟩ |
    ⟨config, paths, path, failure, hconfig, hpaths, hrefused⟩ | ⟨config, paths, dumps, hloads⟩
  · rw [course_of_config_error hconfig] at h
    cases h
  · rw [course_of_unwalkable hconfig hpaths] at h
    exact .inl (mem_unknownDetectorNotices h)
  · rw [course_of_firstRefused hconfig hpaths hrefused] at h
    exact .inl (mem_unknownDetectorNotices h)
  · rw [course_of_loads hloads] at h
    rcases List.mem_append.1 h with hunknown | hlater
    · exact .inl (mem_unknownDetectorNotices hunknown)
    · rcases List.mem_append.1 hlater with hloaded | hexamined
      · exact .inr (.inr ⟨config, paths, dumps, hloads, hloaded⟩)
      · rcases mem_examineNotices hexamined with hdetector | hwarning
        · exact .inr (.inl hdetector)
        · exact .inl hwarning

/-- The progress is shown when everything is loaded, unless the analysis is quiet. -/
theorem progress_mem_course_iff {text : String} :
    .progress text ∈ (course tree request colors).notices ↔
      request.quiet = false ∧ ∃ config paths dumps, Loads tree request config paths dumps ∧
        text = "Examining " ++ toString (kept config dumps.flatten).length ++
          " contexts from " ++ toString paths.length ++ " files...\n" := by
  constructor
  · intro h
    rcases notice_cases h with ⟨warning, hwarning⟩ | ⟨level, record, hrecord⟩ |
      ⟨config, paths, dumps, hloads, hloaded⟩
    · cases hwarning
    · cases hrecord
    · rcases mem_loadedNotices.1 hloaded with hrecord | ⟨hquiet, hprogress⟩
      · cases hrecord
      · exact ⟨hquiet, config, paths, dumps, hloads, Notice.progress.inj hprogress⟩
  · rintro ⟨hquiet, config, paths, dumps, hloads, rfl⟩
    rw [course_of_loads hloads]
    refine List.mem_append_right _ (List.mem_append_left _ ?_)
    exact mem_loadedNotices.2 (.inr ⟨hquiet, rfl⟩)

/-- The only debugging record of the command itself is the one on what has been loaded. -/
theorem loadedNotice_of_mem_course {entry : LogRecord}
    (h : .log entry ∈ (course tree request colors).notices) (hlevel : entry.level = .debug)
    (horigin : entry.origin = "smellguard::commands::analyze") :
    ∃ config paths dumps, Loads tree request config paths dumps ∧
      .log entry = loadedNotice paths.length (kept config dumps.flatten).length
        (dumps.flatten.length - (kept config dumps.flatten).length) := by
  rcases notice_cases h with ⟨warning, hwarning⟩ | ⟨level, text, hrecord⟩ |
    ⟨config, paths, dumps, hloads, hloaded⟩
  · cases hwarning
    cases hlevel
  · cases hrecord
    simp at horigin
  · rcases mem_loadedNotices.1 hloaded with hrecord | ⟨-, hprogress⟩
    · exact ⟨config, paths, dumps, hloads, hrecord⟩
    · cases hprogress

end Courses

section Lines

variable {tree : FileTree} {request : AnalyzeRequest} {config : Config} {paths : List Path}
  {dumps : List (List Context)} {colors : Bool}

/-- The line on what has been loaded, where the log shows it. -/
def loadedLine (filter : LogFilter) (files contexts suppressed : Nat) : String :=
  let counts := "loaded contexts files=" ++ toString files ++ " contexts=" ++ toString contexts ++
    " suppressed=" ++ toString suppressed
  if filter.shows ⟨.debug, "smellguard::commands::analyze", counts⟩ then
    "DEBUG " ++ counts ++ "\n"
  else ""

/-- The line on what is about to be examined. -/
def progressLine (quiet : Bool) (contexts files : Nat) : String :=
  if quiet then ""
  else "Examining " ++ toString contexts ++ " contexts from " ++ toString files ++ " files...\n"

theorem exists_loadedLine (filter : LogFilter) (files contexts suppressed : Nat) :
    ∃ records, loadedLine filter files contexts suppressed = logLines records := by
  rw [loadedLine]
  split
  · exact ⟨[⟨.debug, "", _⟩], (String.join_cons.trans String.append_empty).symm⟩
  · exact ⟨[], rfl⟩

theorem join_progressNotices (filter : LogFilter) (quiet : Bool) (contexts files : Nat) :
    String.join ((if quiet then [] else [progressNotice contexts files]).map
      (Notice.text filter)) = progressLine quiet contexts files := by
  cases quiet with
  | true => rfl
  | false => exact String.join_cons.trans String.append_empty

/-- What is said of what has been loaded has two lines. -/
theorem join_loadedNotices (filter : LogFilter) (files contexts suppressed : Nat) :
    String.join ((loadedNotices request files contexts suppressed).map (Notice.text filter)) =
      loadedLine filter files contexts suppressed ++
        progressLine request.quiet contexts files := by
  rw [loadedNotices, List.map_cons, String.join_cons, join_progressNotices]
  rfl

theorem isLog_of_mem_unknown {notice : Notice} (h : notice ∈ unknownDetectorNotices config) :
    ∃ record, notice = .log record := by
  obtain ⟨_, rfl⟩ := mem_unknownDetectorNotices h
  exact ⟨_, rfl⟩

theorem isLog_of_mem_examine {notice : Notice} {contexts : List Context}
    (h : notice ∈ (examine request colors config contexts).notices) :
    ∃ record, notice = .log record := by
  obtain ⟨_, _, rfl⟩ | ⟨_, rfl⟩ := mem_examineNotices h
  · exact ⟨_, rfl⟩
  · exact ⟨_, rfl⟩

/-- Once everything is loaded, what is said before and after does not depend on the counts. -/
theorem exists_stderr_of_examine (filter : LogFilter) (request : AnalyzeRequest) (colors : Bool)
    (config : Config) (contexts : List Context) :
    ∃ before after : List LogRecord, ∀ files examined suppressed tree,
      (Course.outcome ⟨unknownDetectorNotices config ++
          (loadedNotices request files examined suppressed ++
            (examine request colors config contexts).notices),
        (examine request colors config contexts).result⟩ filter tree).stderr =
      logLines before ++ loadedLine filter files examined suppressed ++
        progressLine request.quiet examined files ++
        (logLines after ++ Course.ending (examine request colors config contexts).result) := by
  have hunknown : ∀ notice ∈ unknownDetectorNotices config, ∃ record, notice = .log record :=
    fun _ => isLog_of_mem_unknown
  have hexamine : ∀ notice ∈ (examine request colors config contexts).notices,
      ∃ record, notice = .log record := fun _ => isLog_of_mem_examine
  obtain ⟨before, hbefore⟩ := exists_logLines filter hunknown
  obtain ⟨after, hafter⟩ := exists_logLines filter hexamine
  refine ⟨before, after, fun files examined suppressed tree => ?_⟩
  rw [Course.stderr_outcome, List.map_append, List.map_append, String.join_append,
    String.join_append, hbefore, hafter, join_loadedNotices, Course.closing_eq_ending]
  simp only [String.append_assoc]

/-- What is announced: the progress, once everything is loaded and unless it is to be quiet. -/
inductive Announces (tree : FileTree) (request : AnalyzeRequest) : String → Prop
  | progress {config : Config} {paths : List Path} {dumps : List (List Context)} :
      Loads tree request config paths dumps →
      request.quiet = false →
      Announces tree request ("Examining " ++ toString (kept config dumps.flatten).length ++
        " contexts from " ++ toString paths.length ++ " files...\n")
  | quiet : request.quiet = true → Announces tree request ""
  | stopped : (∀ config paths dumps, ¬ Loads tree request config paths dumps) →
      Announces tree request ""

theorem announces_progressLine (h : Loads tree request config paths dumps) :
    Announces tree request
      (progressLine request.quiet (kept config dumps.flatten).length paths.length) := by
  rw [progressLine]
  split_ifs with hquiet
  · exact .quiet hquiet
  · exact .progress h (Bool.not_eq_true _ ▸ hquiet)

/-- What an analysis shows: lines of the log, the progress among them, and the failure. -/
theorem exists_announced (tree : FileTree) (request : AnalyzeRequest) (colors : Bool)
    (filter : LogFilter) (files : FileTree) :
    ∃ before progress after, Announces tree request progress ∧
      ((course tree request colors).outcome filter files).stderr =
        logLines before ++ progress ++ logLines after ++
          Course.ending (course tree request colors).result := by
  by_cases hloads : ∃ config paths dumps, Loads tree request config paths dumps
  · obtain ⟨config, paths, dumps, hloads⟩ := hloads
    obtain ⟨before, after, hsaid⟩ := exists_stderr_of_examine filter request colors config
      (kept config dumps.flatten)
    obtain ⟨loaded, hloaded⟩ := exists_loadedLine filter paths.length
      (kept config dumps.flatten).length
      (dumps.flatten.length - (kept config dumps.flatten).length)
    refine ⟨before ++ loaded, _, after, announces_progressLine hloads, ?_⟩
    rw [course_of_loads hloads, hsaid, hloaded, logLines_append]
    simp only [String.append_assoc]
  · -- Nothing but records is said where an analysis stops before everything is loaded.
    simp only [not_exists] at hloads
    have hrecords : ∀ notice ∈ (course tree request colors).notices,
        ∃ record, notice = .log record := by
      intro notice hnotice
      rcases notice_cases hnotice with ⟨_, rfl⟩ | ⟨_, _, rfl⟩ | ⟨config, paths, dumps, h, -⟩
      · exact ⟨_, rfl⟩
      · exact ⟨_, rfl⟩
      · exact absurd h (hloads config paths dumps)
    obtain ⟨before, hbefore⟩ := exists_logLines filter hrecords
    refine ⟨before, "", [], .stopped hloads, ?_⟩
    rw [Course.stderr_outcome, Course.closing_eq_ending, hbefore]
    simp [logLines]

end Lines

end Analyze
end CodeSmells
