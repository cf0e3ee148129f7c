import CodeSmells.Proofs.Files.Writing
import CodeSmells.Proofs.Stages
import Mathlib.Data.String.Basic

/-!
# What `init` writes, and what it changes

Only `init` writes, and it writes one file: the default configuration, at the
place that its path names.  An analysis with the default configuration leaves out
the contexts of tests, and is otherwise one without a configuration.

**Results.**

* `files_runRequest`: commands other than `init` leave the files alone.
* `runRequest_of_present`, `runRequest_of_target`, `runRequest_of_no_target`: what `init` does.
* `parse_defaultText`: what the configuration that is written says.
* `load_withoutTests`: dumps with and without the contexts of tests.
* `result_withoutTests`: analyses with the configuration, and without it and without tests.
* `only_init_writes`: all of it, for command lines.
-/

namespace CodeSmells

open Fallible

/-- A context that the default configuration takes for one of the tests. -/
def Context.isTest (context : Context) : Bool :=
  Glob.fits "spec/**" context.source.text || Glob.fits "test/**" context.source.text

/-- The configuration that is written, as an analysis reads it. -/
def Config.initial : Config :=
  ⟨"text", NameMap.empty, ["spec/**", "test/**"]⟩

section Configuration

/-- A text without a byte order mark is scanned from its first character. -/
theorem Toml.statements?_of_toList {text : String} {chars : List Char} (h : text.toList = chars)
    (hmark : chars.head? ≠ some '\uFEFF') :
    statements? text = (statements (chars.length + 1) ⟨0, chars⟩).map Prod.fst := by
  subst h
  rw [statements?, Cursor.start, String.length_toList]
  split
  next s heq => exact absurd (congrArg List.head? heq) hmark
  next => rfl

namespace Config

theorem toList_defaultText :
    defaultText.toList = defaultLines.flatMap fun line => line.toList ++ ['\n'] := by
  rw [defaultText, String.toList_join, List.flatMap_map]
  refine List.flatMap_congr fun line _ => ?_
  rw [String.toList_append]
  rfl

/-- An analysis can read the configuration that is written. -/
theorem parse_defaultText : parse defaultText = .ok initial := by
  have hparts : (parse defaultText).toOption.map (fun config =>
      (config.outputFormat, config.detectors.entries.isEmpty, config.suppressedFiles)) =
        some ("text", true, ["spec/**", "test/**"]) := by
    rw [parse, Toml.entries?, Toml.statements?_of_toList toList_defaultText (by decide +kernel)]
    decide +kernel
  cases hparse : parse defaultText with
  | error refusal =>
      rw [hparse] at hparts
      cases hparts
  | ok config =>
      rw [hparse] at hparts
      obtain ⟨format, detectors, files⟩ := config
      simp only [Except.toOption, Option.map_some, Option.some.injEq, Prod.mk.injEq,
        List.isEmpty_iff] at hparts
      obtain ⟨rfl, hentries, rfl⟩ := hparts
      obtain rfl : detectors = NameMap.empty := NameMap.ext_entries hentries
      rfl

end Config

end Configuration

section Dumps

/-- The bytes of a dump without the contexts of tests; bytes that are no dump stay. -/
inductive WithoutTests : ByteArray → ByteArray → Prop
  | dump {text fewer : String} {contexts : List Context} :
      Context.parseDump text = .ok contexts →
      Context.parseDump fewer = .ok (contexts.filter fun context => !context.isTest) →
      WithoutTests text.toUTF8 fewer.toUTF8
  | other {bytes : ByteArray} :
      (∀ text contexts, String.fromUTF8? bytes = some text →
        Context.parseDump text ≠ .ok contexts) →
      WithoutTests bytes bytes

variable {tree other : FileTree} {path : Path}

/-- What is loaded depends on what is read. -/
theorem Context.load_congr (h : other.readText path = tree.readText path) :
    Context.load other path = Context.load tree path := by
  rw [load, load, h]

/-- From places that are alike, the same contexts are loaded, without those of tests. -/
theorem Context.load_withoutTests
    (hallows : ∀ access location, tree.allows access location = other.allows access location)
    (h : FileTree.Agree (FileTree.Entry.Alike WithoutTests) (tree.resolve path)
      (other.resolve path)) :
    Context.load other path =
      (Context.load tree path).map (List.filter fun context => !context.isTest) := by
  -- Where nothing is loaded, both trees say the same.
  have hfails (hread : other.readText path = tree.readText path)
      (hnever : ∀ location bytes text contexts, tree.resolve path = .ok (.file location bytes) →
        String.fromUTF8? bytes = some text → parseDump text ≠ .ok contexts) :
      Context.load other path =
        (Context.load tree path).map (List.filter fun context => !context.isTest) := by
    rw [Context.load_congr hread]
    cases hload : Context.load tree path with
    | error failure => rfl
    | ok contexts =>
        obtain ⟨location, bytes, text, hfile, htext, hparse⟩ := Context.load_eq_ok_iff.1 hload
        exact absurd hparse (hnever location bytes text contexts hfile htext)
  generalize hentry : tree.resolve path = result at h
  generalize hentry' : other.resolve path = result' at h
  cases h with
  | error =>
      refine hfails (by rw [FileTree.readText, FileTree.readText, hentry, hentry']) ?_
      intro location bytes text contexts hfile
      rw [hentry] at hfile
      cases hfile
  | ok halike =>
      cases halike with
      | sealed | directory =>
          refine hfails (by simp only [FileTree.readText, hentry, hentry', hallows]) ?_
          intro location bytes text contexts hfile
          rw [hentry] at hfile
          cases hfile
      | file hbytes =>
          cases hbytes with
          | dump hparse hfewer =>
              rw [Context.load_of_resolve hentry hparse, Context.load_of_resolve hentry' hfewer]
              rfl
          | other hnone =>
              refine hfails (by rw [FileTree.readText, FileTree.readText, hentry, hentry']) ?_
              intro location bytes text contexts hfile htext
              rw [hentry] at hfile
              cases hfile
              exact hnone text contexts htext

end Dumps

section Analyses

variable {tree thinned : FileTree} {request : AnalyzeRequest} {colors : Bool}

/-- Without the file of a configuration, the default one is loaded. -/
theorem Config.load_of_absent {path : Path} (h : tree.present path = false) :
    Config.load tree path = .ok Config.default := by
  rw [load, h]
  rfl

namespace Analyze

/-- The configuration that is written keeps all contexts but those of tests. -/
theorem kept_initial (contexts : List Context) :
    kept Config.initial contexts =
      kept Config.default (contexts.filter fun context => !context.isTest) := by
  simp [kept, Config.initial, Config.default, Context.isTest]

/-- To what is kept it makes no difference. -/
theorem examine_initial (request : AnalyzeRequest) (colors : Bool) (contexts : List Context) :
    examine request colors Config.initial contexts =
      examine request colors Config.default contexts :=
  rfl

/-- Without the contexts of tests, the others are loaded as before. -/
theorem loadAll_withoutTests {paths : List Path}
    (hallows : ∀ access location, tree.allows access location = thinned.allows access location)
    (h : ∀ path ∈ paths, FileTree.Agree (FileTree.Entry.Alike WithoutTests) (tree.resolve path)
      (thinned.resolve path)) :
    loadAll thinned paths =
      (loadAll tree paths).map (List.filter fun context => !context.isTest) := by
  rw [loadAll, loadAll, flatten_mapM_eq_inTurn, flatten_mapM_eq_inTurn]
  exact inTurn_eq_map_filter fun path hpath =>
    Context.load_withoutTests hallows (h path hpath)

/-- The result of an analysis, from what it loads. -/
theorem result_of_loadAll {config : Config} {paths : List Path} {loaded : List Context}
    (hconfig : Config.load tree (configPath request) = .ok config)
    (hpaths : tree.discover request.path = .ok paths) (hloaded : loadAll tree paths = .ok loaded) :
    (course tree request colors).result =
      (examine request colors config (kept config loaded)).result := by
  rw [course, hconfig]
  simp only [hpaths, hloaded, examineLoaded, kept_eq]

/-- The result of an analysis that does not load its dumps. -/
theorem result_of_loadAll_error {config : Config} {paths : List Path} {failure : Failure}
    (hconfig : Config.load tree (configPath request) = .ok config)
    (hpaths : tree.discover request.path = .ok paths)
    (hloaded : loadAll tree paths = .error failure) :
    (course tree request colors).result = .error (.failed failure) := by
  obtain ⟨path, hrefused⟩ := loadAll_eq_error_iff.1 hloaded
  rw [course_of_firstRefused hconfig hpaths hrefused]

/--
An analysis with the default configuration has the result of one without a
configuration on the same files without the contexts of tests.
-/
theorem result_withoutTests (colors : Bool) {location : Location}
    (hwritten : tree.resolve (configPath request) =
      .ok (.file location Config.defaultText.toUTF8))
    (hmissing : FileTree.namesDump location = false)
    (hclear : tree.IsClearOf request.path location)
    (h : FileTree.AlikeWithout WithoutTests location tree thinned) :
    (course thinned request colors).result = (course tree request colors).result := by
  have hload : Config.load tree (configPath request) = .ok Config.initial :=
    Config.load_of_resolve hwritten Config.parse_defaultText
  have hload' : Config.load thinned (configPath request) = .ok Config.default :=
    Config.load_of_absent (FileTree.present_of_gone h hwritten rfl)
  have hdiscover := FileTree.discover_alike h hmissing hclear
  cases hpaths : tree.discover request.path with
  | error error =>
      rw [course_of_unwalkable hload hpaths,
        course_of_unwalkable hload' (hdiscover.symm.trans hpaths)]
  | ok paths =>
      have hpaths' := hdiscover.symm.trans hpaths
      have hthinned := loadAll_withoutTests h.allows fun path hpath =>
        FileTree.resolve_discovered h hmissing hclear hpaths hpath
      cases hloaded : loadAll tree paths with
      | error failure =>
          rw [hloaded] at hthinned
          rw [result_of_loadAll_error hload hpaths hloaded,
            result_of_loadAll_error hload' hpaths' hthinned]
      | ok loaded =>
          rw [hloaded] at hthinned
          rw [result_of_loadAll hload hpaths hloaded, result_of_loadAll hload' hpaths' hthinned,
            kept_initial, examine_initial]

end Analyze

end Analyses

section Commands

variable (surroundings : Surroundings) {tree : FileTree} {path : Path} {force : Bool}

namespace Command

/-- Commands other than `init` leave the files as they are. -/
theorem files_runRequest {request : Request} (h : ∀ path force, request ≠ .init path force) :
    (runRequest surroundings tree request).files = tree := by
  cases request with
  | analyze request => exact Course.files_outcome _ _ tree
  | list => exact Course.files_outcome _ _ tree
  | init path force => exact absurd rfl (h path force)
  | help topic => rfl
  | version => rfl

/-- What is present is kept unless the command is forced. -/
theorem runRequest_of_present (h : tree.present path = true) :
    runRequest surroundings tree (.init path false) =
      ⟨0, "", (Init.existsNotice path).text (.ofSetting surroundings.log), tree⟩ := by
  simp only [runRequest, Init.course, h]
  rfl

theorem keeps_eq_false (hwrites : tree.present path = false ∨ force = true) :
    (tree.present path && !force) = false := by
  rcases hwrites with habsent | rfl
  · rw [habsent, Bool.false_and]
  · rw [Bool.not_true, Bool.and_false]

variable {location : Location}

/-- The default configuration is written to the place that a path names. -/
theorem runRequest_of_target (hwrites : tree.present path = false ∨ force = true)
    (h : tree.Target path location) :
    runRequest surroundings tree (.init path force) =
      ⟨0, "Created " ++ path.text ++ "\n", "", tree.put location Config.defaultText.toUTF8⟩ := by
  have hwrite : tree.write path Config.defaultText.toUTF8 =
      .ok (tree.put location Config.defaultText.toUTF8) :=
    FileTree.write_eq_ok_iff.2 ⟨location, h, rfl⟩
  simp only [runRequest, Init.course, keeps_eq_false hwrites, hwrite]
  rfl

/-- A path that names no place is not written to. -/
theorem runRequest_of_no_target (hwrites : tree.present path = false ∨ force = true)
    (h : ∀ location, ¬ tree.Target path location) :
    ∃ stderr, runRequest surroundings tree (.init path force) = ⟨1, "", stderr, tree⟩ := by
  cases hwrite : tree.write path Config.defaultText.toUTF8 with
  | ok after =>
      obtain ⟨location, htarget, -⟩ := FileTree.write_eq_ok_iff.1 hwrite
      exact absurd htarget (h location)
  | error error =>
      simp only [runRequest, Init.course, keeps_eq_false hwrites, hwrite]
      exact ⟨_, rfl⟩

/-- What is present is kept, or there is a place to write to, or there is none. -/
theorem init_cases (tree : FileTree) (path : Path) (force : Bool) :
    (tree.present path = true ∧ force = false) ∨
    ((tree.present path = false ∨ force = true) ∧
      ((∃ location, tree.Target path location) ∨ ∀ location, ¬ tree.Target path location)) := by
  by_cases hwrites : tree.present path = false ∨ force = true
  · refine .inr ⟨hwrites, ?_⟩
    exact exists_or_forall_not fun location => tree.Target path location
  · rw [not_or, Bool.not_eq_false, Bool.not_eq_true] at hwrites
    exact .inl hwrites

/-- After `init` there is nothing left to write without force. -/
theorem files_init_again (path : Path) (force : Bool) :
    let after := (runRequest surroundings tree (.init path force)).files
    (runRequest surroundings after (.init path false)).files = after := by
  intro after
  rcases init_cases tree path force with ⟨hpresent, rfl⟩ |
    ⟨hwrites, ⟨location, htarget⟩ | hnone⟩
  · simp only [after, runRequest_of_present surroundings hpresent]
  · simp only [after, runRequest_of_target surroundings hwrites htarget,
      runRequest_of_present surroundings (FileTree.present_put htarget _)]
  · obtain ⟨stderr, hstderr⟩ := runRequest_of_no_target surroundings hwrites hnone
    simp only [after, hstderr]
    cases hpresent : tree.present path with
    | true => rw [runRequest_of_present surroundings hpresent]
    | false =>
        obtain ⟨stderr', hstderr'⟩ :=
          runRequest_of_no_target surroundings (.inl hpresent) hnone
        rw [hstderr']

/--
Only `init` changes files.  It leaves everything as it is if something is present at its
path and it is not forced.  Otherwise it writes the default configuration to the place
that the path names and changes nothing else, or, if the path names no place that can be
written, it fails and changes nothing.  A second run without force changes nothing more.
Once it has written the configuration that an analysis reads, the analysis has the
outcome of one without a configuration on the same files without the contexts of tests.
-/
theorem only_init_writes (surroundings : Surroundings) (tree : FileTree) :
    (∀ arguments, (∀ path force, Request.ofArguments? arguments ≠ some (.init path force)) →
      (run surroundings tree arguments).files = tree) ∧
    ∀ arguments path force, Request.ofArguments? arguments = some (.init path force) →
      let outcome := run surroundings tree arguments
      let after := outcome.files
      (tree.present path = true → force = false →
        after = tree ∧ outcome.stdout = "" ∧ outcome.code = 0) ∧
      (tree.present path = false ∨ force = true →
        (∃ location, tree.Target path location ∧
          after.file? location = some Config.defaultText.toUTF8 ∧
          FileTree.Unchanged location tree after ∧
          after.present path = true ∧
          (tree.allows .read location = true →
            after.resolve path = .ok (.file location Config.defaultText.toUTF8)) ∧
          outcome.stdout = "Created " ++ path.text ++ "\n" ∧ outcome.code = 0) ∨
        (∀ location, ¬ tree.Target path location) ∧
          after = tree ∧ outcome.stdout = "" ∧ outcome.code = 1) ∧
      (∀ others, Request.ofArguments? others = some (.init path false) →
        (run surroundings after others).files = after) ∧
      ∀ location thinned others request, Request.ofArguments? others = some (.analyze request) →
        tree.present path = false ∨ force = true → tree.Target path location →
        after.resolve (Analyze.configPath request) =
          .ok (.file location Config.defaultText.toUTF8) →
        FileTree.namesDump location = false →
        after.IsClearOf request.path location →
        FileTree.AlikeWithout WithoutTests location after thinned →
        (run surroundings thinned others).code = (run surroundings after others).code ∧
        (run surroundings thinned others).stdout = (run surroundings after others).stdout ∧
        (Analyze.course thinned request surroundings.colors).result =
          (Analyze.course after request surroundings.colors).result := by
  constructor
  · intro arguments hothers
    cases hrequest : Request.ofArguments? arguments with
    | none => rw [run, hrequest]
    | some request =>
        rw [run_of_request hrequest]
        refine files_runRequest surroundings fun path force hinit => hothers path force ?_
        rw [hrequest, hinit]
  · intro arguments path force hrequest outcome after
    have houtcome : outcome = runRequest surroundings tree (.init path force) :=
      run_of_request hrequest surroundings tree
    have hafter : after = (runRequest surroundings tree (.init path force)).files :=
      congrArg Outcome.files houtcome
    refine ⟨?_, ?_, ?_, ?_⟩
    · intro hpresent hforce
      rw [hafter, houtcome, hforce, runRequest_of_present surroundings hpresent]
      exact ⟨rfl, rfl, rfl⟩
    · intro hwrites
      rcases exists_or_forall_not fun location => tree.Target path location with
        ⟨location, htarget⟩ | hnone
      · left
        rw [hafter, houtcome, runRequest_of_target surroundings hwrites htarget]
        refine ⟨location, htarget, FileTree.file?_put_self _ _ _, FileTree.unchanged_put htarget _,
          FileTree.present_put htarget _, fun hread => ?_, rfl, rfl⟩
        rw [FileTree.resolve_put htarget, FileTree.written, if_pos hread]
      · obtain ⟨stderr, hstderr⟩ := runRequest_of_no_target surroundings hwrites hnone
        right
        rw [hafter, houtcome, hstderr]
        exact ⟨hnone, rfl, rfl, rfl⟩
    · intro others hothers
      rw [run_of_request hothers, hafter]
      exact files_init_again surroundings path force
    · intro location thinned others request hothers _ _ hwritten hmissing hclear halike
      have hresult :=
        Analyze.result_withoutTests surroundings.colors hwritten hmissing hclear halike
      obtain ⟨hcode, hstdout⟩ := Course.outcome_of_result hresult
        (.ofSetting surroundings.log) thinned after
      rw [run_of_request hothers, run_of_request hothers]
      exact ⟨hcode, hstdout, hresult⟩

/--
A dump holds a method of a test and another method.  `init` writes beside its directory,
once, and an analysis then has the outcome of one of the other method alone.
-/
theorem init_beside_a_dump :
    let method := ((Context.bare .method "Shape#draw" 7).withSource ⟨"lib/shape.rb"⟩).withDefault
      "filled" .true
    let test := ((Context.bare .method "Spec#draw" 1).withSource ⟨"spec/shape.rb"⟩).withDefault
      "filled" .true
    let home : FileName := ⟨"home", by decide⟩
    let work : FileName := ⟨"work", by decide⟩
    let tree (contexts : List Context) :=
      (FileTree.emptyAt [home, work]).put [home, work, ⟨"dump.json", by decide⟩]
        (Context.dump contexts).compact.toUTF8
    let surroundings : Surroundings := ⟨false, none⟩
    let init := ["init", "/home/smells.toml"]
    let analyze := ["analyze", "-c", "../smells.toml", "dump.json"]
    let outcome := run surroundings (tree [test, method]) init
    (run surroundings (tree [test, method]) ["list"]).files = tree [test, method] ∧
    outcome.stdout = "Created /home/smells.toml\n" ∧ outcome.code = 0 ∧
    outcome.files.file? [home, ⟨"smells.toml", by decide⟩] = some Config.defaultText.toUTF8 ∧
    (run surroundings outcome.files init).files = outcome.files ∧
    (run surroundings (tree [method]) analyze).code =
      (run surroundings outcome.files analyze).code ∧
    (run surroundings (tree [method]) analyze).stdout =
      (run surroundings outcome.files analyze).stdout := by
  intro method test home work tree surroundings init analyze outcome
  let smells : FileName := ⟨"smells.toml", by decide⟩
  let dump : FileName := ⟨"dump.json", by decide⟩
  let base := FileTree.emptyAt [home, work]
  have hinit : Request.ofArguments? init = some (.init ⟨"/home/smells.toml"⟩ false) := by
    decide +kernel
  have hanalyze : Request.ofArguments? analyze = some (.analyze
      ⟨⟨"dump.json"⟩, none, [], some ⟨"../smells.toml"⟩, false, false⟩) := by decide +kernel
  have hlist : Request.ofArguments? ["list"] = some .list := by decide +kernel
  have hnames {path : Path} (hlast : FileTree.namesDirectory
      ((FileTree.segments path).getLast?.getD "") = false) : FileTree.NamesFile path :=
    FileTree.namesFile_iff.2 hlast
  have hplace : base.Target ⟨"dump.json"⟩ ([home, work] ++ [dump]) :=
    .new (hnames (by decide +kernel)) (by with_unfolding_all rfl) rfl
  have hlocate (bytes : ByteArray) : (base.put [home, work, dump] bytes).locate
      ⟨"/home/smells.toml"⟩ = .ok (.free [home] smells) := by with_unfolding_all rfl
  have htarget (contexts : List Context) :
      (tree contexts).Target ⟨"/home/smells.toml"⟩ ([home] ++ [smells]) :=
    .new (hnames (by decide +kernel)) (hlocate _) rfl
  have habsent : (tree [test, method]).present ⟨"/home/smells.toml"⟩ = false := by
    rw [FileTree.present, FileTree.resolve, hlocate]
  have hafter : outcome.files =
      (tree [test, method]).put [home, smells] Config.defaultText.toUTF8 := by
    simp only [outcome, run_of_request hinit]
    rw [runRequest_of_target surroundings (.inl habsent) (htarget _)]
    rfl
  have hconfig (dumped config : ByteArray) :
      ((base.put [home, work, dump] dumped).put [home, smells] config).resolve
        ⟨"../smells.toml"⟩ = .ok (.file [home, smells] config) := by with_unfolding_all rfl
  have hkept : [test, method].filter (fun context => !context.isTest) = [method] := by
    have htest : test.isTest = true := by decide +kernel
    have hmethod : method.isTest = false := by decide +kernel
    simp [htest, hmethod]
  have hboth : Context.parseDump (Context.dump [test, method]).compact = .ok [test, method] :=
    Context.parseDump_dump_of_bare (by decide +kernel) (by decide +kernel)
  have hdump : WithoutTests (Context.dump [test, method]).compact.toUTF8
      (Context.dump [method]).compact.toUTF8 := by
    refine .dump hboth ?_
    rw [hkept]
    exact Context.parseDump_dump_of_bare (by decide +kernel) (by decide +kernel)
  have hempty : ∀ other old, base.file? other = some old → WithoutTests old old := by
    intro other old hold
    cases hold
  have hbase : FileTree.AlikeBut WithoutTests [home, smells] (tree [test, method])
      (tree [method]) :=
    FileTree.alikeBut_put_put hplace hdump hempty (FileTree.alikeBut_put (htarget _) .empty).plain
      (FileTree.alikeBut_put (htarget _) .empty).plain
  have halike : FileTree.AlikeWithout WithoutTests [home, smells] outcome.files
      (tree [method]) := by
    rw [hafter]
    exact hbase.put rfl (htarget _) _
  have hclear : outcome.files.IsClearOf ⟨"dump.json"⟩ [home, smells] := by
    rw [hafter]
    exact FileTree.isClearOf_name dump (by decide) rfl
  obtain ⟨hothers, hinits⟩ := only_init_writes surroundings (tree [test, method])
  obtain ⟨-, hwrites, hagain, hanalyses⟩ := hinits init _ false hinit
  obtain ⟨hcode, hstdout, -⟩ := hanalyses _ (tree [method]) analyze _ hanalyze
    (.inl habsent) (htarget _) (hafter ▸ hconfig _ _) (by decide +kernel) hclear halike
  rcases hwrites (.inl habsent) with ⟨location, -, -, -, -, -, hsaid, hcreated⟩ | ⟨hnone, -⟩
  · refine ⟨hothers ["list"] ?_, hsaid.trans (by decide +kernel), hcreated, ?_,
      hagain init hinit, hcode, hstdout⟩
    · intro path force hrequest
      rw [hlist] at hrequest
      cases hrequest
    · rw [hafter]
      exact FileTree.file?_put_self _ _ _
  · exact absurd (htarget _) (hnone _)

end Command

end Commands

end CodeSmells
