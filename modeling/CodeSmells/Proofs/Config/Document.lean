import CodeSmells.Proofs.Config.Entries
import CodeSmells.Proofs.Toml.Order

/-!
# What a document fixes

Each part of a configuration is what one item of the document says, or its default
where the document has no such item.

**Results.**

* `ofEntries_eq_ok_iff`: a document of tables is read as the configuration that it describes.
* `HasTypes.exists_describes`: it describes one if its settings have the right types.
* `SameSettings.describes_iff`: nothing but the settings matters.
* `document_fixes_settings`: all of it.
-/

namespace CodeSmells
namespace Config

open Toml Fallible

variable {entries : Entries} {item : Item} {span : Span} {config : Config}

/-- A document whose settings stand in tables, where they stand at all. -/
structure HasTables (entries : Entries) : Prop where
  global : ∀ item, entries.item? ["global"] = some item → item.IsTable
  detectors : ∀ item, entries.item? ["detectors"] = some item → item.IsTable
  entry : ∀ name item, entries.item? ["detectors", name] = some item → item.IsTable
  suppressions : ∀ item, entries.item? ["suppressions"] = some item → item.IsTable

/-- The names in the table of detectors. -/
def detectorNames (entries : Entries) : List String :=
  (((entries.item? ["detectors"]).bind Item.entries?).getD []).names

theorem mem_detectorNames {name : String} (h : entries.item? ["detectors", name] = some item) :
    name ∈ detectorNames entries := by
  rw [Entries.item?_cons_cons] at h
  obtain ⟨table, htable, hbind⟩ := Option.bind_eq_some_iff.1 h
  obtain ⟨inner, hinner, hfound⟩ := Option.bind_eq_some_iff.1 hbind
  rw [detectorNames, Entries.item?_singleton, htable, Option.bind_some, hinner, Option.getD_some]
  by_contra hnot
  rw [Entries.item?_singleton, Entries.find?_eq_none_iff.2 hnot] at hfound
  cases hfound

/-- The paths at which a document must have tables. -/
def tablePaths (entries : Entries) : List (List String) :=
  [["global"], ["detectors"], ["suppressions"]] ++
    (detectorNames entries).map fun name => ["detectors", name]

theorem hasTables_iff :
    HasTables entries ↔ ∀ path ∈ tablePaths entries, ∀ item, entries.item? path = some item →
      item.IsTable := by
  constructor
  · intro h path hmem
    rcases List.mem_append.1 hmem with hfixed | hnamed
    · simp only [List.mem_cons, List.not_mem_nil, or_false] at hfixed
      obtain rfl | rfl | rfl := hfixed
      · exact h.global
      · exact h.detectors
      · exact h.suppressions
    · obtain ⟨name, -, rfl⟩ := List.mem_map.1 hnamed
      exact h.entry name
  · intro h
    refine ⟨h _ ?_, h _ ?_, fun name item hitem => h ["detectors", name] ?_ item hitem, h _ ?_⟩
    · exact List.mem_append_left _ (by simp)
    · exact List.mem_append_left _ (by simp)
    · exact List.mem_append_right _ (List.mem_map_of_mem (mem_detectorNames hitem))
    · exact List.mem_append_left _ (by simp)

instance (entries : Entries) : Decidable (HasTables entries) :=
  decidable_of_iff
    (((tablePaths entries).all fun path =>
      (entries.item? path).all fun item => item.entries?.isSome) = true)
    (by simp only [hasTables_iff, List.all_eq_true, Option.all_eq_true, Option.isSome_iff_exists,
      Item.IsTable])

/-- What a document says on one detector. -/
@[mk_iff describesDetector_def]
structure DescribesDetector (entries : Entries) (name : String)
    (held : Option DetectorEntry) : Prop where
  present : held.isSome = (entries.item? ["detectors", name]).isSome
  enabled : ∀ entry, held = some entry → MeansOr (Given Item.IsBool) none
    (entries.item? ["detectors", name, "enabled"]) entry.enabled
  exclude : ∀ entry, held = some entry → MeansOr Item.IsTexts []
    (entries.item? ["detectors", name, "exclude"]) entry.exclude

/-- What a document says on the settings, with the defaults for what it does not say. -/
@[mk_iff describes_def]
structure Describes (entries : Entries) (config : Config) : Prop where
  outputFormat : MeansOr Item.IsText "text" (entries.item? ["global", "output_format"])
    config.outputFormat
  detectors : ∀ name, DescribesDetector entries name (config.detectors.get? name)
  suppressedFiles : MeansOr Item.IsTexts [] (entries.item? ["suppressions", "files"])
    config.suppressedFiles

theorem rightUnique_describesDetector (name : String) :
    Relator.RightUnique fun entries => DescribesDetector entries name := by
  intro entries x y hx hy
  cases x with
  | none =>
      cases y with
      | none => rfl
      | some entry => cases hx.present.trans hy.present.symm
  | some entry =>
      cases y with
      | none => cases hx.present.trans hy.present.symm
      | some other =>
          obtain ⟨enabled, exclude⟩ := entry
          obtain ⟨enabled', exclude'⟩ := other
          obtain rfl : enabled = enabled' :=
            rightUnique_meansOr (rightUnique_given Item.rightUnique_isBool)
              (hx.enabled _ rfl) (hy.enabled _ rfl)
          obtain rfl : exclude = exclude' :=
            rightUnique_meansOr Item.rightUnique_isTexts (hx.exclude _ rfl) (hy.exclude _ rfl)
          rfl

theorem rightUnique_describes : Relator.RightUnique Describes := by
  rintro entries ⟨format, map, files⟩ ⟨format', map', files'⟩ h h'
  obtain rfl : format = format' :=
    rightUnique_meansOr Item.rightUnique_isText h.outputFormat h'.outputFormat
  obtain rfl : map = map' := NameMap.ext_get? fun name =>
    rightUnique_describesDetector name (h.detectors name) (h'.detectors name)
  obtain rfl : files = files' :=
    rightUnique_meansOr Item.rightUnique_isTexts h.suppressedFiles h'.suppressedFiles
  rfl

/-- The tables of a document that hold settings. -/
def settingField (draft : Config) (name : String) : Option (Reader Config) :=
  if name = "global" then some fun span item =>
    (readGlobal span item).map fun value => { draft with outputFormat := value }
  else if name = "detectors" then some fun span item =>
    (readEntries span item).map fun value => { draft with detectors := value }
  else if name = "suppressions" then some fun span item =>
    (readSuppressions span item).map fun value => { draft with suppressedFiles := value }
  else none

/-- A table of settings changes one part of a configuration. -/
theorem settingField_cases {draft next : Config} {name : String} {read : Reader Config}
    (hread : settingField draft name = some read) (hnext : read span item = .ok next) :
    (name = "global" ∧ ∃ value, next = { draft with outputFormat := value }) ∨
      (name = "detectors" ∧ ∃ map, next = { draft with detectors := map }) ∨
      (name = "suppressions" ∧ ∃ values, next = { draft with suppressedFiles := values }) := by
  rw [settingField] at hread
  split_ifs at hread with hname hname hname <;> cases hread <;>
    obtain ⟨value, -, rfl⟩ := map_eq_ok_iff.1 hnext
  · exact .inl ⟨hname, value, rfl⟩
  · exact .inr (.inl ⟨hname, value, rfl⟩)
  · exact .inr (.inr ⟨hname, value, rfl⟩)

section Tables

variable (hentries : entries.Proper) (htables : HasTables entries)

include hentries htables

/-- The table of global settings says the output format. -/
theorem readGlobal_of_find? {value : String} (hfound : entries.find? "global" = some item) :
    readGlobal span item = .ok value ↔
      Within (fun inner => MeansOr Item.IsText "text" (inner.item? ["output_format"])) item
        value := by
  obtain ⟨inner, hinner⟩ := htables.global item hfound
  simp only [readGlobal_eq_ok_iff (hentries.of_find? hfound) hinner, Within, hinner,
    Option.some.injEq, exists_eq_left']

/-- The table of detectors says what its tables say. -/
theorem readEntries_of_find? {map : NameMap DetectorEntry}
    (hfound : entries.find? "detectors" = some item) :
    readEntries span item = .ok map ↔ Within DescribesEntries item map := by
  obtain ⟨inner, hinner⟩ := htables.detectors item hfound
  have hbelow (name : String) (found : Item) (hitem : inner.item? [name] = some found) :
      found.IsTable :=
    htables.entry name found ((Entries.item?_of_table hfound hinner).trans hitem)
  simp only [readEntries_eq_ok_iff (hentries.of_find? hfound) hinner hbelow, Within, hinner,
    Option.some.injEq, exists_eq_left']

/-- The table of suppressions says the files. -/
theorem readSuppressions_of_find? {values : List String}
    (hfound : entries.find? "suppressions" = some item) :
    readSuppressions span item = .ok values ↔
      Within (fun inner => MeansOr Item.IsTexts [] (inner.item? ["files"])) item values := by
  obtain ⟨inner, hinner⟩ := htables.suppressions item hfound
  simp only [readSuppressions_eq_ok_iff (hentries.of_find? hfound) hinner, Within, hinner,
    Option.some.injEq, exists_eq_left']

end Tables

theorem item?_detector_field (entries : Entries) (name key : String) :
    entries.item? ["detectors", name, key] = (entries.item? ["detectors", name]).bind fun item =>
      item.entries?.bind fun inner => inner.item? [key] :=
  entries.item?_concat "detectors" [name] key

/-- A field of an entry stands in an entry. -/
theorem exists_entry_of_field {name key : String}
    (hfound : entries.item? ["detectors", name, key] = some item) :
    ∃ table, entries.item? ["detectors", name] = some table := by
  rw [item?_detector_field] at hfound
  obtain ⟨table, htable, -⟩ := Option.bind_eq_some_iff.1 hfound
  exact ⟨table, htable⟩

theorem Describes.exists_entry {name key : String} (h : Describes entries config)
    (hfound : entries.item? ["detectors", name, key] = some item) :
    ∃ entry, config.detectors.get? name = some entry := by
  obtain ⟨table, htable⟩ := exists_entry_of_field hfound
  have hpresent := (h.detectors name).present
  rw [htable, Option.isSome_some] at hpresent
  exact Option.isSome_iff_exists.1 hpresent

/-- What the table of one detector says is what the items in it say. -/
theorem describesDetector_iff {name : String} {held : Option DetectorEntry}
    (htables : HasTables entries) :
    DescribesDetector entries name held ↔
      MeansOr (Given (Within DescribesEntry)) none (entries.item? ["detectors", name]) held := by
  have hbelow := item?_detector_field entries name
  cases hfound : entries.item? ["detectors", name] with
  | none =>
      constructor
      · intro h
        have hpresent := h.present
        rw [hfound, Option.isSome_none, Option.isSome_eq_false_iff, Option.isNone_iff_eq_none]
          at hpresent
        exact hpresent
      · rintro rfl
        refine ⟨?_, nofun, nofun⟩
        rw [hfound]
        rfl
  | some item =>
      obtain ⟨inner, hinner⟩ := htables.entry name item hfound
      simp only [hfound, hinner, Option.bind_some] at hbelow
      simp only [MeansOr, Given, Within, hinner, Option.some.injEq, exists_eq_left']
      constructor
      · intro h
        have hpresent := h.present
        rw [hfound, Option.isSome_some, Option.isSome_iff_exists] at hpresent
        obtain ⟨entry, rfl⟩ := hpresent
        refine ⟨entry, ⟨?_, ?_⟩, rfl⟩
        · exact hbelow "enabled" ▸ h.enabled entry rfl
        · exact hbelow "exclude" ▸ h.exclude entry rfl
      · rintro ⟨entry, hentry, rfl⟩
        refine ⟨?_, ?_, ?_⟩
        · rw [hfound]
          rfl
        · rintro _ ⟨⟩
          exact hbelow "enabled" ▸ hentry.enabled
        · rintro _ ⟨⟩
          exact hbelow "exclude" ▸ hentry.exclude

/-- What a table of detectors says is what the items in it say. -/
theorem meansOr_describesEntries_iff {map : NameMap DetectorEntry} (htables : HasTables entries) :
    MeansOr (Within DescribesEntries) NameMap.empty (entries.find? "detectors") map ↔
      ∀ name, DescribesDetector entries name (map.get? name) := by
  simp only [describesDetector_iff htables]
  cases hfound : entries.find? "detectors" with
  | none =>
      simp only [Entries.item?_of_none hfound, MeansOr]
      exact ⟨fun hempty name => by rw [hempty]; rfl, fun h => NameMap.ext_get? h⟩
  | some item =>
      obtain ⟨inner, hinner⟩ := htables.detectors item hfound
      simp only [Entries.item?_of_table hfound hinner, MeansOr, Within, hinner, Option.some.injEq,
        exists_eq_left']
      rfl

theorem describes_iff (htables : HasTables entries) :
    Describes entries config ↔
      MeansOr (Within fun inner => MeansOr Item.IsText "text" (inner.item? ["output_format"]))
          "text" (entries.find? "global") config.outputFormat ∧
        MeansOr (Within DescribesEntries) NameMap.empty (entries.find? "detectors")
          config.detectors ∧
        MeansOr (Within fun inner => MeansOr Item.IsTexts [] (inner.item? ["files"])) []
          (entries.find? "suppressions") config.suppressedFiles := by
  rw [meansOr_within_iff htables.global, meansOr_describesEntries_iff htables,
    meansOr_within_iff htables.suppressions]
  exact ⟨fun h => ⟨h.outputFormat, h.detectors, h.suppressedFiles⟩,
    fun ⟨hformat, hdetectors, hfiles⟩ => ⟨hformat, hdetectors, hfiles⟩⟩

/-- What is read from a document of tables is what it says on the settings. -/
theorem describes_of_ofEntries (hentries : entries.Proper) (htables : HasTables entries)
    (h : ofEntries entries = .ok config) : Describes entries config := by
  change foldEntries settingField Config.default entries = .ok config at h
  rw [describes_iff htables]
  refine ⟨?_, ?_, ?_⟩
  · refine meansOr_foldEntries Config.outputFormat hentries.distinct ?_ ?_ h
    · intro draft key read span item next hkey hread hnext
      obtain ⟨hname, -⟩ | ⟨-, _, rfl⟩ | ⟨-, _, rfl⟩ := settingField_cases hread hnext
      · exact absurd hname hkey
      · rfl
      · rfl
    · refine fun draft => ⟨_, rfl, fun span item next hfound hnext => ?_⟩
      obtain ⟨value, hvalue, rfl⟩ := map_eq_ok_iff.1 hnext
      exact (readGlobal_of_find? hentries htables hfound).1 hvalue
  · refine meansOr_foldEntries Config.detectors hentries.distinct ?_ ?_ h
    · intro draft key read span item next hkey hread hnext
      obtain ⟨-, _, rfl⟩ | ⟨hname, -⟩ | ⟨-, _, rfl⟩ := settingField_cases hread hnext
      · rfl
      · exact absurd hname hkey
      · rfl
    · refine fun draft => ⟨_, rfl, fun span item next hfound hnext => ?_⟩
      obtain ⟨map, hmap, rfl⟩ := map_eq_ok_iff.1 hnext
      exact (readEntries_of_find? hentries htables hfound).1 hmap
  · refine meansOr_foldEntries Config.suppressedFiles hentries.distinct ?_ ?_ h
    · intro draft key read span item next hkey hread hnext
      obtain ⟨-, _, rfl⟩ | ⟨-, _, rfl⟩ | ⟨hname, -⟩ := settingField_cases hread hnext
      · rfl
      · rfl
      · exact absurd hname hkey
    · refine fun draft => ⟨_, rfl, fun span item next hfound hnext => ?_⟩
      obtain ⟨values, hvalues, rfl⟩ := map_eq_ok_iff.1 hnext
      exact (readSuppressions_of_find? hentries htables hfound).1 hvalues

/-- A document that says something on the settings can be read. -/
theorem exists_ofEntries_of_describes (hentries : entries.Proper) (htables : HasTables entries)
    (h : Describes entries config) : ∃ final, ofEntries entries = .ok final := by
  obtain ⟨hformat, hdetectors, hfiles⟩ := (describes_iff htables).1 h
  change ∃ final, foldEntries settingField Config.default entries = .ok final
  refine exists_foldEntries hentries.distinct ?_ _
  intro draft name read span item hread hfound
  rw [settingField] at hread
  split_ifs at hread with hname hname hname <;> subst hname <;> cases hread
  · have hread : readGlobal span item = .ok _ :=
      (readGlobal_of_find? hentries htables hfound).2 (hformat.said hfound)
    exact ⟨_, map_eq_ok_iff.2 ⟨_, hread, rfl⟩⟩
  · have hread : readEntries span item = .ok _ :=
      (readEntries_of_find? hentries htables hfound).2 (hdetectors.said hfound)
    exact ⟨_, map_eq_ok_iff.2 ⟨_, hread, rfl⟩⟩
  · have hread : readSuppressions span item = .ok _ :=
      (readSuppressions_of_find? hentries htables hfound).2 (hfiles.said hfound)
    exact ⟨_, map_eq_ok_iff.2 ⟨_, hread, rfl⟩⟩

/-- A document of tables is read as the configuration that it describes. -/
theorem ofEntries_eq_ok_iff (hentries : entries.Proper) (htables : HasTables entries) :
    ofEntries entries = .ok config ↔ Describes entries config := by
  refine ⟨describes_of_ofEntries hentries htables, fun h => ?_⟩
  obtain ⟨final, hfinal⟩ := exists_ofEntries_of_describes hentries htables h
  rw [hfinal, rightUnique_describes (describes_of_ofEntries hentries htables hfinal) h]

/-- A document whose settings have the right types, where they stand at all. -/
structure HasTypes (entries : Entries) : Prop where
  outputFormat : ∀ item, entries.item? ["global", "output_format"] = some item →
    ∃ value, item.IsText value
  files : ∀ item, entries.item? ["suppressions", "files"] = some item →
    ∃ values, item.IsTexts values
  enabled : ∀ name item, entries.item? ["detectors", name, "enabled"] = some item →
    ∃ value, item.IsBool value
  exclude : ∀ name item, entries.item? ["detectors", name, "exclude"] = some item →
    ∃ values, item.IsTexts values

/-- Two documents that say the same on the settings, whatever else they say. -/
structure SameSettings (entries others : Entries) : Prop where
  outputFormat : Resemble (entries.item? ["global", "output_format"])
    (others.item? ["global", "output_format"])
  files : Resemble (entries.item? ["suppressions", "files"])
    (others.item? ["suppressions", "files"])
  present : ∀ name, (entries.item? ["detectors", name]).isSome =
    (others.item? ["detectors", name]).isSome
  enabled : ∀ name, Resemble (entries.item? ["detectors", name, "enabled"])
    (others.item? ["detectors", name, "enabled"])
  exclude : ∀ name, Resemble (entries.item? ["detectors", name, "exclude"])
    (others.item? ["detectors", name, "exclude"])

/-- A document that says something on the settings has settings of the right types. -/
theorem Describes.hasTypes (h : Describes entries config) : HasTypes entries where
  outputFormat := h.outputFormat.exists_said
  files := h.suppressedFiles.exists_said
  enabled name item hitem := by
    obtain ⟨entry, hentry⟩ := h.exists_entry hitem
    obtain ⟨value, hvalue, -⟩ := ((h.detectors name).enabled entry hentry).said hitem
    exact ⟨value, hvalue⟩
  exclude name item hitem := by
    obtain ⟨entry, hentry⟩ := h.exists_entry hitem
    exact ((h.detectors name).exclude entry hentry).exists_said item hitem

/-- A document of tables with settings of the right types says something on them. -/
theorem HasTypes.exists_describes (h : HasTypes entries) (hentries : entries.Proper)
    (htables : HasTables entries) : ∃ config, Describes entries config := by
  obtain ⟨format, hformat⟩ := exists_meansOr "text" h.outputFormat
  obtain ⟨files, hfiles⟩ := exists_meansOr [] h.files
  have hentry (name : String) (item : Item)
      (hfound : entries.item? ["detectors", name] = some item) :
      ∃ entry, Within DescribesEntry item entry := by
    obtain ⟨inner, hinner⟩ := htables.entry name item hfound
    have hbelow (key : String) : entries.item? ["detectors", name, key] = inner.item? [key] := by
      rw [item?_detector_field, hfound, Option.bind_some, hinner, Option.bind_some]
    obtain ⟨enabled, henabled⟩ : ∃ enabled,
        MeansOr (Given Item.IsBool) none (inner.item? ["enabled"]) enabled := by
      refine exists_meansOr none fun item hitem => ?_
      obtain ⟨value, hvalue⟩ := h.enabled name item ((hbelow "enabled").trans hitem)
      exact ⟨some value, value, hvalue, rfl⟩
    obtain ⟨exclude, hexclude⟩ : ∃ exclude,
        MeansOr Item.IsTexts [] (inner.item? ["exclude"]) exclude :=
      exists_meansOr [] fun item hitem => h.exclude name item ((hbelow "exclude").trans hitem)
    exact ⟨⟨enabled, exclude⟩, inner, hinner, henabled, hexclude⟩
  obtain ⟨map, hmap⟩ : ∃ map, MeansOr (Within DescribesEntries) NameMap.empty
      (entries.find? "detectors") map := by
    refine exists_meansOr NameMap.empty fun item hfound => ?_
    obtain ⟨inner, hinner⟩ := htables.detectors item hfound
    have hproper := Entries.Proper.of_entries? (hentries.of_find? hfound) hinner
    have hbelow (name : String) : entries.item? ["detectors", name] = inner.item? [name] :=
      Entries.item?_of_table hfound hinner
    have htables' (name : String) (item : Item) (hitem : inner.item? [name] = some item) :
        item.IsTable := htables.entry name item ((hbelow name).trans hitem)
    obtain ⟨map, hmap⟩ := exists_foldEntries_mapField hproper htables' fun name item hitem =>
      hentry name item ((hbelow name).trans hitem)
    exact ⟨map, inner, hinner, describesEntries_of_foldEntries hproper htables' hmap⟩
  exact ⟨⟨format, map, files⟩, hformat, (meansOr_describesEntries_iff htables).1 hmap, hfiles⟩

/-- A detector without an entry is enabled and excludes nothing. -/
theorem Describes.settingsFor_of_absent {name : String} (h : Describes entries config)
    (habsent : entries.item? ["detectors", name] = none) :
    config.settingsFor name = ⟨true, []⟩ := by
  have hpresent := (h.detectors name).present
  rw [habsent, Option.isSome_none, Option.isSome_eq_false_iff, Option.isNone_iff_eq_none]
    at hpresent
  rw [settingsFor, hpresent]
  rfl

/-- A detector with an entry has the settings that the entry says. -/
theorem Describes.settingsFor_of_present {name : String} (h : Describes entries config)
    (hfound : entries.item? ["detectors", name] = some item) :
    ((config.settingsFor name).enabled = false ↔
        ∃ switch, entries.item? ["detectors", name, "enabled"] = some switch ∧
          switch.IsBool false) ∧
      MeansOr Item.IsTexts [] (entries.item? ["detectors", name, "exclude"])
        (config.settingsFor name).exclude := by
  have hpresent := (h.detectors name).present
  rw [hfound, Option.isSome_some, Option.isSome_iff_exists] at hpresent
  obtain ⟨entry, hentry⟩ := hpresent
  rw [settingsFor, hentry]
  refine ⟨?_, (h.detectors name).exclude entry hentry⟩
  have henabled := (h.detectors name).enabled entry hentry
  simp only [DetectorSettings.ofEntry]
  cases hswitch : entries.item? ["detectors", name, "enabled"] with
  | none =>
      rw [hswitch] at henabled
      rw [show entry.enabled = none from henabled]
      simp
  | some switch =>
      obtain ⟨value, hvalue, hsome⟩ := henabled.said hswitch
      rw [hsome]
      simp only [Option.getD_some, Option.some.injEq, exists_eq_left']
      constructor
      · rintro rfl
        exact hvalue
      · exact fun hfalse => Item.rightUnique_isBool hvalue hfalse

section Documents

variable {others : Entries}

/-- Documents that say the same on the settings describe the same configuration. -/
theorem SameSettings.describes_iff (h : SameSettings entries others) :
    Describes entries config ↔ Describes others config := by
  have htext (item other : Item) (h : item.Resembles other) := h.text
  have htexts (item other : Item) (h : item.Resembles other) := h.texts
  have hgiven (item other : Item) (h : item.Resembles other) (x : Option Bool) :
      Given Item.IsBool item x ↔ Given Item.IsBool other x := by
    simp only [Given, h.bool]
  have hdetector (name : String) :
      DescribesDetector entries name (config.detectors.get? name) ↔
        DescribesDetector others name (config.detectors.get? name) := by
    simp only [describesDetector_def, h.present name, (h.enabled name).meansOr_iff hgiven,
      (h.exclude name).meansOr_iff htexts]
  simp only [describes_def, h.outputFormat.meansOr_iff htext, h.files.meansOr_iff htexts,
    hdetector]

theorem SameSettings.of_resemble
    (h : ∀ path, Resemble (entries.item? path) (others.item? path)) :
    SameSettings entries others where
  outputFormat := h _
  files := h _
  present name := by
    have hentry := h ["detectors", name]
    generalize entries.item? ["detectors", name] = found,
      others.item? ["detectors", name] = found' at hentry
    cases hentry <;> rfl
  enabled name := h _
  exclude name := h _

theorem HasTables.of_resemble (htables : HasTables entries)
    (h : ∀ path, Resemble (entries.item? path) (others.item? path)) : HasTables others := by
  have htable (path : List String)
      (hpath : ∀ item, entries.item? path = some item → item.IsTable) (other : Item)
      (hother : others.item? path = some other) : other.IsTable := by
    have hresemble := h path
    rw [hother] at hresemble
    cases hfound : entries.item? path with
    | none =>
        rw [hfound] at hresemble
        cases hresemble
    | some item =>
        rw [hfound] at hresemble
        cases hresemble with
        | some hresembles => exact hresembles.table.1 (hpath item hfound)
  exact ⟨htable _ htables.global, htable _ htables.detectors,
    fun name => htable _ (htables.entry name), htable _ htables.suppressions⟩

/-- A text of tables is read as the configuration that it describes. -/
theorem parse_eq_ok_iff {text : String} (hdocument : entries? text = some entries)
    (htables : HasTables entries) : parse text = .ok config ↔ Describes entries config := by
  rw [parse, hdocument]
  exact ofEntries_eq_ok_iff (proper_entries? hdocument) htables

/-- A document whose settings stand in tables is accepted if they have the right types.  It fixes
the settings of every detector, the output format and the suppression list, with their defaults,
and nothing else does: a document that says the same on the settings gives the same configuration,
and so does one that mentions the same in another order. -/
theorem document_fixes_settings {text : String} (hdocument : entries? text = some entries)
    (htables : HasTables entries) :
    ((∃ config, parse text = .ok config) ↔ HasTypes entries) ∧
      (∀ config, parse text = .ok config →
        MeansOr Item.IsText "text" (entries.item? ["global", "output_format"])
            config.outputFormat ∧
          MeansOr Item.IsTexts [] (entries.item? ["suppressions", "files"])
            config.suppressedFiles ∧
          ∀ name,
            (entries.item? ["detectors", name] = none → config.settingsFor name = ⟨true, []⟩) ∧
            ∀ item, entries.item? ["detectors", name] = some item →
              ((config.settingsFor name).enabled = false ↔
                ∃ switch, entries.item? ["detectors", name, "enabled"] = some switch ∧
                  switch.IsBool false) ∧
              MeansOr Item.IsTexts [] (entries.item? ["detectors", name, "exclude"])
                (config.settingsFor name).exclude) ∧
      (∀ other others, entries? other = some others → HasTables others →
        SameSettings entries others → ∀ config,
          parse other = .ok config ↔ parse text = .ok config) ∧
      ∀ other others statements statements', entries? other = some others →
        statements? text = some statements → statements? other = some statements' →
        Rewrites statements statements' → ∀ config,
          parse other = .ok config ↔ parse text = .ok config := by
  have hparse (config : Config) : parse text = .ok config ↔ Describes entries config :=
    parse_eq_ok_iff hdocument htables
  refine ⟨?_, fun config hconfig => ?_, ?_, ?_⟩
  · simp only [hparse]
    exact ⟨fun ⟨config, h⟩ => h.hasTypes, fun h =>
      h.exists_describes (proper_entries? hdocument) htables⟩
  · have h := (hparse config).1 hconfig
    exact ⟨h.outputFormat, h.suppressedFiles, fun name =>
      ⟨h.settingsFor_of_absent, fun item => h.settingsFor_of_present⟩⟩
  · intro other others hother htables' hsame config
    rw [hparse, parse_eq_ok_iff hother htables', hsame.describes_iff]
  · intro other others statements statements' hother hstatements hstatements' hrewrites config
    have hresemble := resemble_of_rewrites hrewrites hstatements hstatements' hdocument hother
    rw [hparse, parse_eq_ok_iff hother (htables.of_resemble hresemble),
      (SameSettings.of_resemble hresemble).describes_iff]

/-- A document with a detector that is switched off, and the same in another order. -/
theorem settings_of_two_orders :
    let text := "[detectors.A]\nenabled = false\n[x]\ny = 1"
    let other := "[x]\ny = 1\n[detectors.A]\nenabled = false"
    ∃ entries config, entries? text = some entries ∧ HasTables entries ∧ HasTypes entries ∧
      parse text = .ok config ∧ parse other = .ok config ∧ config.outputFormat = "text" ∧
      config.settingsFor "A" = ⟨false, []⟩ ∧ config.settingsFor "B" = ⟨true, []⟩ := by
  intro text other
  have hdocument : ((entries? text).any fun entries => decide (HasTables entries)) = true := by
    decide +kernel
  have hother : (entries? other).isSome = true := by decide +kernel
  have hmentions : (statements? text).map (fun found => (mentions [] found).map Mention.plain?) =
      some ([(["detectors", "A"], .inl true), (["detectors", "A", "enabled"], .inr (.bool false)),
        (["x"], .inl true), (["x", "y"], .inr (.integer 1))].map some) := by decide +kernel
  have hmentions' : (statements? other).map (fun found => (mentions [] found).map Mention.plain?) =
      some ([(["x"], .inl true), (["x", "y"], .inr (.integer 1)),
        (["detectors", "A"], .inl true),
        (["detectors", "A", "enabled"], .inr (.bool false))].map some) := by decide +kernel
  have hsettings : (parse text).toOption.map (fun config =>
      (config.outputFormat, config.settingsFor "A", config.settingsFor "B")) =
      some ("text", ⟨false, []⟩, ⟨true, []⟩) := by decide +kernel
  obtain ⟨entries, hentries, htables⟩ := (Option.any_eq_true _ _).1 hdocument
  obtain ⟨others, hothers⟩ := Option.isSome_iff_exists.1 hother
  obtain ⟨found, hfound, hplain⟩ := Option.map_eq_some_iff.1 hmentions
  obtain ⟨found', hfound', hplain'⟩ := Option.map_eq_some_iff.1 hmentions'
  obtain ⟨config, hconfig, hparts⟩ := Option.map_eq_some_iff.1 hsettings
  have hparse := toOption_eq_some_iff.1 hconfig
  obtain ⟨haccepted, -, -, horder⟩ :=
    document_fixes_settings hentries (of_decide_eq_true htables)
  obtain ⟨hformat, hoff, hon⟩ : config.outputFormat = "text" ∧
      config.settingsFor "A" = ⟨false, []⟩ ∧ config.settingsFor "B" = ⟨true, []⟩ := by
    simpa using hparts
  have hrewrites := Rewrites.of_plain? hplain hplain' (by decide +kernel)
  exact ⟨entries, config, hentries, of_decide_eq_true htables, haccepted.1 ⟨config, hparse⟩, hparse,
    (horder other others found found' hothers hfound hfound' hrewrites config).2 hparse, hformat,
    hoff, hon⟩

end Documents

end Config
end CodeSmells
