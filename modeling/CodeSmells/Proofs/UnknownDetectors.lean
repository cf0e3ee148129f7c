import CodeSmells.Proofs.Config.Document
import CodeSmells.Proofs.OutputFormat
import CodeSmells.Proofs.Text.ByteOrder

/-!
# Entries on detectors that are not known

The names that have an entry and are not known come in the order of their bytes,
however the entries are written or stored.  An analysis warns of each of them as soon
as it has loaded the configuration.

**Results.**

* `pairwise_unknownDetectors`, `mem_unknownDetectors_iff`: which names there are, and in
  which order.
* `unknownDetectors_eq_sort`: they are those of any list of the entries, sorted.
* `isSome_get?_of_parse`: a document has the entries that stand in its table of detectors.
* `notices_of_configured`: an analysis warns of them first.
* `unknown_detectors_are_reported`: all of it.
-/

namespace CodeSmells

namespace Config

open Toml Fallible

section Names

variable {config : Config} {known others : List String} {name : String}

/-- The names are in the order of their bytes, and each stands once. -/
theorem pairwise_unknownDetectors (config : Config) (known : List String) :
    ((config.unknownDetectors known).map Text.bytes).Pairwise (· < ·) := by
  rw [List.pairwise_map]
  exact (config.detectors.pairwise_names.filter _).imp Text.bytes_lt_iff.2

theorem mem_unknownDetectors_iff :
    name ∈ config.unknownDetectors known ↔
      (∃ entry, config.detectors.get? name = some entry) ∧ name ∉ known := by
  rw [unknownDetectors, List.mem_filter, NameMap.mem_names_iff]
  simp

/-- Only what is known matters, not how often or in which order. -/
theorem unknownDetectors_congr (h : ∀ name, name ∈ others ↔ name ∈ known) :
    config.unknownDetectors others = config.unknownDetectors known := by
  refine List.filter_congr fun name _ => ?_
  rw [Bool.eq_iff_iff]
  simp [h]

/-- The names of the entries in any order, without the known ones, and sorted. -/
theorem unknownDetectors_eq_sort {stored : List (String × DetectorEntry)}
    (h : stored.Perm config.detectors.entries) :
    ((stored.map Prod.fst).filter fun name => !known.contains name).mergeSort
        (fun a b => decide (a ≤ b)) = config.unknownDetectors known := by
  have htrans (a b c : String) (hab : decide (a ≤ b) = true) (hbc : decide (b ≤ c) = true) :
      decide (a ≤ c) = true := by
    rw [decide_eq_true_iff] at hab hbc ⊢
    exact String.le_trans hab hbc
  have htotal (a b : String) : (decide (a ≤ b) || decide (b ≤ a)) = true := by
    rw [Bool.or_eq_true, decide_eq_true_iff, decide_eq_true_iff]
    exact String.le_total a b
  have hperm := (List.mergeSort_perm ((stored.map Prod.fst).filter fun name =>
    !known.contains name) fun a b => decide (a ≤ b)).trans ((h.map Prod.fst).filter _)
  refine hperm.eq_of_pairwise (fun a b _ _ hab hba => ?_)
    ((List.pairwise_mergeSort htrans htotal _).imp fun hle => decide_eq_true_iff.1 hle)
    ((config.detectors.pairwise_names.filter _).imp fun hlt =>
      String.not_lt.1 (String.lt_asymm hlt))
  exact String.le_antisymm hab hba

end Names

section Documents

variable {entries : Entries} {item : Item} {span : Span} {map : NameMap DetectorEntry}

/-- What is read of a table of detectors has an entry for each name in the table. -/
theorem isSome_get?_of_foldEntries (hentries : entries.Proper)
    (h : foldEntries mapField NameMap.empty entries = .ok map) (name : String) :
    (map.get? name).isSome = (entries.item? [name]).isSome := by
  have hmeans : MeansOr (fun _ present => present = true) false (entries.find? name)
      (map.get? name).isSome := by
    refine meansOr_foldEntries (fun map => (map.get? name).isSome) hentries.distinct ?_ ?_ h
    · rintro draft key read span item next hkey ⟨⟩ hnext
      obtain ⟨entry, -, rfl⟩ := map_eq_ok_iff.1 hnext
      rw [NameMap.get?_insert, if_neg hkey]
    · refine fun draft => ⟨_, rfl, fun span item next _ hnext => ?_⟩
      obtain ⟨entry, -, rfl⟩ := map_eq_ok_iff.1 hnext
      rw [NameMap.get?_insert, if_pos rfl]
      rfl
  rw [Entries.item?_singleton]
  cases hfound : entries.find? name with
  | none =>
      rw [hfound] at hmeans
      exact hmeans
  | some item => exact hmeans.said hfound

/-- Detectors are read of a table only. -/
theorem exists_entries_of_readEntries (h : readEntries span item = .ok map) :
    ∃ inner, item.entries? = some inner := by
  cases item with
  | braces inner => exact ⟨inner, rfl⟩
  | table _ inner => exact ⟨inner, rfl⟩
  | array | tables => cases h
  | scalar value =>
      cases value with
      | moment value =>
          change (readEntry span (.scalar (.text value) span)).map
            (fun entry => NameMap.empty.insert momentField entry) = .ok map at h
          obtain ⟨entry, hentry, -⟩ := map_eq_ok_iff.1 h
          cases hentry
      | text | integer | real | bool => cases h

/-- A document has an entry for each name in its table of detectors. -/
theorem isSome_get?_of_parse {text : String} {config : Config}
    (hdocument : entries? text = some entries) (h : parse text = .ok config) (name : String) :
    (config.detectors.get? name).isSome = (entries.item? ["detectors", name]).isSome := by
  have hentries := proper_entries? hdocument
  rw [parse, hdocument] at h
  change foldEntries settingField Config.default entries = .ok config at h
  have hmeans : MeansOr (fun item map => ∃ inner, item.entries? = some inner ∧
      ∀ name, (map.get? name).isSome = (inner.item? [name]).isSome) NameMap.empty
      (entries.find? "detectors") config.detectors := by
    refine meansOr_foldEntries Config.detectors hentries.distinct ?_ ?_ h
    · intro draft key read span item next hkey hread hnext
      obtain ⟨-, _, rfl⟩ | ⟨hname, -⟩ | ⟨-, _, rfl⟩ := settingField_cases hread hnext
      · rfl
      · exact absurd hname hkey
      · rfl
    · refine fun draft => ⟨_, rfl, fun span item next hfound hnext => ?_⟩
      obtain ⟨map, hmap, rfl⟩ := map_eq_ok_iff.1 hnext
      obtain ⟨inner, hinner⟩ := exists_entries_of_readEntries hmap
      have hproper := Entries.Proper.of_entries? (hentries.of_find? hfound) hinner
      rw [readEntries_of_entries? hinner] at hmap
      exact ⟨inner, hinner, isSome_get?_of_foldEntries hproper hmap⟩
  cases hfound : entries.find? "detectors" with
  | none =>
      rw [hfound] at hmeans
      rw [show config.detectors = NameMap.empty from hmeans, Entries.item?_of_none hfound]
      rfl
  | some item =>
      obtain ⟨inner, hinner, hnames⟩ := hmeans.said hfound
      rw [Entries.item?_of_table hfound hinner]
      exact hnames name

/-- Documents with the same names in their tables of detectors have the same unknown names. -/
theorem unknownDetectors_eq_of_parse {text other : String} {config config' : Config}
    {others : Entries} (hdocument : entries? text = some entries)
    (hother : entries? other = some others)
    (hnames : ∀ name, (entries.item? ["detectors", name]).isSome =
      (others.item? ["detectors", name]).isSome)
    (h : parse text = .ok config) (h' : parse other = .ok config') (known : List String) :
    config'.unknownDetectors known = config.unknownDetectors known := by
  have hperm : config'.detectors.names.Perm config.detectors.names := by
    rw [List.perm_ext_iff_of_nodup config'.detectors.nodup_names config.detectors.nodup_names]
    intro name
    simp only [NameMap.mem_names_iff, ← Option.isSome_iff_exists, isSome_get?_of_parse hdocument h,
      isSome_get?_of_parse hother h', hnames]
  have heq : config'.detectors.names = config.detectors.names :=
    hperm.eq_of_pairwise (fun a b _ _ hab hba => absurd hba (String.lt_asymm hab))
      config'.detectors.pairwise_names config.detectors.pairwise_names
  rw [unknownDetectors, unknownDetectors, heq]

end Documents

end Config

namespace Analyze

section Runs

variable {tree : FileTree} {request : AnalyzeRequest} {colors : Bool} {config : Config}

/-- The warning on an entry, as the log shows the name of its detector. -/
def unknownNotice (shown : String) : Notice :=
  record .warn ("Config entry for unknown detector '" ++ shown ++ "' is ignored")

theorem unknownNotice_ne_formatNotice (shown name : String) :
    unknownNotice shown ≠ formatNotice name := by
  simp only [unknownNotice, formatNotice, String.append_assoc]
  exact record_ne_of_head rfl rfl (by decide) _ _

/-- An examination warns of no entry. -/
theorem unknownNotice_notMem_examined {shown : String} {contexts : List Context} :
    unknownNotice shown ∉ (examine request colors config contexts).notices := by
  simp only [examine]
  split
  next => exact record_notMem_detectors
  next =>
    rw [List.mem_append, not_or]
    refine ⟨record_notMem_detectors, fun hmem => ?_⟩
    obtain ⟨name, hname⟩ := exists_formatNotice_of_mem hmem
    exact unknownNotice_ne_formatNotice shown name hname

/-- An analysis that has loaded its configuration first warns of the entries that are not known,
and of none of them again. -/
theorem notices_of_configured (colors : Bool)
    (h : Config.load tree (configPath request) = .ok config) :
    ∃ later, (course tree request colors).notices =
        (config.unknownDetectors knownDetectors).map (fun name => unknownNotice (logText name)) ++
          later ∧
      ∀ shown, unknownNotice shown ∉ later := by
  have hunknown : (config.unknownDetectors knownDetectors).map
      (fun name => unknownNotice (logText name)) = unknownDetectorNotices config := rfl
  rw [hunknown]
  rcases course_cases tree request with ⟨failure, hconfig⟩ | ⟨config', error, hconfig, hpaths⟩ |
    ⟨config', paths, path, failure, hconfig, hpaths, hrefused⟩ | ⟨config', paths, dumps, hloads⟩
  · rw [h] at hconfig
    cases hconfig
  · rw [h] at hconfig
    cases hconfig
    exact ⟨[], by rw [course_of_unwalkable h hpaths, List.append_nil], nofun⟩
  · rw [h] at hconfig
    cases hconfig
    exact ⟨[], by rw [course_of_firstRefused h hpaths hrefused, List.append_nil], nofun⟩
  · have hconfig := hloads.configured
    rw [h] at hconfig
    cases hconfig
    refine ⟨_, by rw [course_of_loads hloads], fun shown => ?_⟩
    rw [List.mem_append, not_or]
    exact ⟨warning_notMem_loaded, unknownNotice_notMem_examined⟩

end Runs

theorem text_unknownNotice (shown : String) :
    (unknownNotice shown).text .default =
      "WARN Config entry for unknown detector '" ++ shown ++ "' is ignored\n" := by
  rw [unknownNotice, text_warning]
  simp only [String.append_assoc]
  rfl

open Config Toml in
/--
The names that have an entry and are not known stand in the order of their bytes, each
once, whatever is known twice or in another order, in whatever order the entries are
stored, and in whatever order the document mentions them.  An analysis that has loaded
its configuration first warns of each of them in this order, and of none of them again,
whatever detectors it selects and however it ends.
-/
theorem unknown_detectors_are_reported :
    (∀ (config : Config) (known : List String),
      ((config.unknownDetectors known).map Text.bytes).Pairwise (· < ·) ∧
      (∀ name, name ∈ config.unknownDetectors known ↔
        (∃ entry, config.detectors.get? name = some entry) ∧ name ∉ known) ∧
      (∀ others, (∀ name, name ∈ others ↔ name ∈ known) →
        config.unknownDetectors others = config.unknownDetectors known) ∧
      ∀ stored : List (String × DetectorEntry), stored.Perm config.detectors.entries →
        ((stored.map Prod.fst).filter fun name => !known.contains name).mergeSort
          (fun a b => decide (a ≤ b)) = config.unknownDetectors known) ∧
    (∀ text entries config, entries? text = some entries → parse text = .ok config →
      (∀ name, (∃ entry, config.detectors.get? name = some entry) ↔
        ∃ item, entries.item? ["detectors", name] = some item) ∧
      ∀ other others statements statements' config', entries? other = some others →
        statements? text = some statements → statements? other = some statements' →
        Rewrites statements statements' → parse other = .ok config' →
        ∀ known, config'.unknownDetectors known = config.unknownDetectors known) ∧
    ∀ (surroundings : Surroundings) (tree : FileTree) (arguments : List String)
      (request : AnalyzeRequest) (config : Config),
      Request.ofArguments? arguments = some (.analyze request) →
      LogFilter.ofSetting surroundings.log = .default →
      Config.load tree (configPath request) = .ok config →
      let outcome := Command.run surroundings tree arguments
      let course := course tree request surroundings.colors
      let unknown := config.unknownDetectors knownDetectors
      ∃ later, course.notices = unknown.map (fun name => unknownNotice (logText name)) ++ later ∧
        (∀ shown, unknownNotice shown ∉ later) ∧
        outcome.stderr =
          String.join (unknown.map fun name =>
            "WARN Config entry for unknown detector '" ++ logText name ++ "' is ignored\n") ++
          (String.join (later.map (Notice.text .default)) ++ Course.closing course.result) := by
  refine ⟨fun config known => ⟨pairwise_unknownDetectors config known,
    fun name => mem_unknownDetectors_iff, fun others => unknownDetectors_congr,
    fun stored => unknownDetectors_eq_sort⟩, ?_, ?_⟩
  · intro text entries config hdocument hparse
    constructor
    · intro name
      rw [← Option.isSome_iff_exists, ← Option.isSome_iff_exists,
        isSome_get?_of_parse hdocument hparse]
    · intro other others statements statements' config' hother hstatements hstatements' hrewrites
        hparse'
      have hresemble := resemble_of_rewrites hrewrites hstatements hstatements' hdocument hother
      exact unknownDetectors_eq_of_parse hdocument hother
        (SameSettings.of_resemble hresemble).present hparse hparse'
  · intro surroundings tree arguments request config hrequest hlog hconfig outcome course unknown
    obtain ⟨later, hnotices, hlater⟩ := notices_of_configured surroundings.colors hconfig
    refine ⟨later, hnotices, hlater, ?_⟩
    have houtcome : outcome = course.outcome (.ofSetting surroundings.log) tree :=
      Command.run_of_request hrequest surroundings tree
    rw [houtcome, Course.stderr_outcome, hlog, hnotices, List.map_append, String.join_append,
      List.map_map, String.append_assoc]
    simp only [Function.comp_def, text_unknownNotice, unknown, course]

/-- An analysis of a file that is not there warns of two entries all the same. -/
theorem unknown_of_one_run :
    let tree := FileTree.empty.put [⟨".smellguard.toml", by decide⟩]
      "[detectors.Zed]\n[detectors.BooleanParameter]\n[detectors.Apple]".toUTF8
    let outcome := Command.run ⟨false, none⟩ tree ["analyze", "gone.json"]
    outcome.code = 1 ∧
    ∃ rest, outcome.stderr =
      "WARN Config entry for unknown detector 'Apple' is ignored\n" ++
        "WARN Config entry for unknown detector 'Zed' is ignored\n" ++ rest := by
  intro tree outcome
  have hknown : knownDetectors = ["BooleanParameter"] := by
    rw [knownDetectors, SmellType.builtIn_eq]
    decide +kernel
  have hrequest : Request.ofArguments? ["analyze", "gone.json"] =
      some (.analyze ⟨⟨"gone.json"⟩, none, [], none, false, false⟩) := by decide +kernel
  obtain ⟨config, hparse, hunknown⟩ : ∃ config,
      Config.parse "[detectors.Zed]\n[detectors.BooleanParameter]\n[detectors.Apple]" = .ok config ∧
        config.unknownDetectors knownDetectors = ["Apple", "Zed"] := by
    have hunknown : (Config.parse
        "[detectors.Zed]\n[detectors.BooleanParameter]\n[detectors.Apple]").toOption.map
        (fun config => config.unknownDetectors ["BooleanParameter"]) = some ["Apple", "Zed"] := by
      decide +kernel
    obtain ⟨config, hconfig, hnames⟩ := Option.map_eq_some_iff.1 hunknown
    exact ⟨config, Fallible.toOption_eq_some_iff.1 hconfig, hknown ▸ hnames⟩
  have hfile := FileTree.resolve_of_file? ⟨".smellguard.toml", by decide⟩
    (FileTree.file?_put_self FileTree.empty [⟨".smellguard.toml", by decide⟩]
      "[detectors.Zed]\n[detectors.BooleanParameter]\n[detectors.Apple]".toUTF8) rfl rfl rfl
  have hconfigured := Config.load_of_resolve hfile hparse
  obtain ⟨-, -, hruns⟩ := unknown_detectors_are_reported
  obtain ⟨later, -, -, hstderr⟩ := hruns ⟨false, none⟩ tree _ _ config hrequest rfl hconfigured
  have hlines : String.join (["Apple", "Zed"].map fun name =>
      "WARN Config entry for unknown detector '" ++ logText name ++ "' is ignored\n") =
      "WARN Config entry for unknown detector 'Apple' is ignored\n" ++
        "WARN Config entry for unknown detector 'Zed' is ignored\n" := by decide +kernel
  rw [hunknown, hlines] at hstderr
  exact ⟨by decide +kernel, _, hstderr⟩

end Analyze
end CodeSmells
