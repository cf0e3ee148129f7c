import CodeSmells.Config.Read
import CodeSmells.Proofs.NameMap
import CodeSmells.Proofs.Toml.Reading

/-!
# What the tables of a document say on the settings

Each part of what is read from a table is what one item of the table says, or a
default where the table has no such item.

**Results.**

* `readRecord_single_eq_ok_iff`: what a record with one field is read as.
* `readEntry_eq_ok_iff`, `readEntries_eq_ok_iff`: what the entries on detectors are read as.
-/

namespace CodeSmells
namespace Toml

open Fallible

variable {σ : Type} {meaning : Item → σ → Prop} {name field : String} {blank value : σ}
  {entries : Entries} {item : Item} {span : Span}

/-- The first of a list of named values is found under its name. -/
theorem lookup_cons_if {β : Type} (name : String) (value : β) (rest : List (String × β))
    (key : String) :
    ((name, value) :: rest).lookup key = if key = name then some value else rest.lookup key := by
  change (match key == name with
    | true => some value
    | false => rest.lookup key) = _
  by_cases hkey : key = name
  · rw [beq_iff_eq.2 hkey, if_pos hkey]
  · rw [beq_eq_false_iff_ne.2 hkey, if_neg hkey]

/-- A record with one field is what the item of this field says. -/
theorem readRecord_single_eq_ok_iff {read : Reader σ}
    (hread : ∀ span item value, item.Proper → (read span item = .ok value ↔ meaning item value))
    (hunique : Relator.RightUnique meaning)
    (hitem : item.Proper) (hentries : item.entries? = some entries) :
    readRecord name blank [(field, fun _ => read)] span item = .ok value ↔
      MeansOr meaning blank (entries.item? [field]) value := by
  rw [readRecord_of_entries? hentries]
  have hproper := Entries.Proper.of_entries? hitem hentries
  simp only [lookup_cons_if, List.lookup_nil, apply_ite, Option.map_some, Option.map_none]
  have hsaid (final : σ) (h : foldEntries (fun _ key => if key = field then some read else none)
      blank entries = .ok final) : MeansOr meaning blank (entries.find? field) final := by
    refine meansOr_foldEntries id hproper.distinct ?_ ?_ h
    · intro draft key known span item next hkey hknown _
      rw [if_neg hkey] at hknown
      cases hknown
    · exact fun draft => ⟨read, if_pos rfl, fun span item next hfound =>
        (hread span item next (hproper.of_find? hfound)).1⟩
  refine ⟨hsaid value, fun hmeans => ?_⟩
  obtain ⟨final, hfinal⟩ : ∃ final,
      foldEntries (fun _ key => if key = field then some read else none) blank entries =
        .ok final := by
    refine exists_foldEntries hproper.distinct ?_ blank
    intro draft key known span item hknown hfound
    split_ifs at hknown with hkey
    subst hkey
    cases hknown
    exact ⟨value, (hread span item value (hproper.of_find? hfound)).2 (hmeans.said hfound)⟩
  rw [hfinal, rightUnique_meansOr hunique (hsaid final hfinal) hmeans]

end Toml

namespace Config

open Toml Fallible

variable {entries : Entries} {item : Item} {span : Span}

/-- The output format in the entries of a table. -/
theorem readGlobal_eq_ok_iff {value : String} (hitem : item.Proper)
    (hentries : item.entries? = some entries) :
    readGlobal span item = .ok value ↔
      MeansOr Item.IsText "text" (entries.item? ["output_format"]) value :=
  readRecord_single_eq_ok_iff (fun _ _ _ _ => readText_eq_ok_iff) Item.rightUnique_isText hitem
    hentries

/-- The suppression list in the entries of a table. -/
theorem readSuppressions_eq_ok_iff {value : List String} (hitem : item.Proper)
    (hentries : item.entries? = some entries) :
    readSuppressions span item = .ok value ↔
      MeansOr Item.IsTexts [] (entries.item? ["files"]) value :=
  readRecord_single_eq_ok_iff (fun _ _ _ => readTexts_eq_ok_iff) Item.rightUnique_isTexts hitem
    hentries

/-- What the entries of a table say on a detector. -/
structure DescribesEntry (entries : Entries) (entry : DetectorEntry) : Prop where
  enabled : MeansOr (Given Item.IsBool) none (entries.item? ["enabled"]) entry.enabled
  exclude : MeansOr Item.IsTexts [] (entries.item? ["exclude"]) entry.exclude

theorem rightUnique_describesEntry : Relator.RightUnique DescribesEntry := by
  rintro entries ⟨enabled, exclude⟩ ⟨enabled', exclude'⟩ h h'
  obtain rfl : enabled = enabled' :=
    rightUnique_meansOr (rightUnique_given Item.rightUnique_isBool) h.enabled h'.enabled
  obtain rfl : exclude = exclude' :=
    rightUnique_meansOr Item.rightUnique_isTexts h.exclude h'.exclude
  rfl

/-- The fields of an entry on a detector. -/
def entryField (draft : DetectorEntry) (key : String) : Option (Reader DetectorEntry) :=
  if key = "enabled" then some fun span item =>
    (readBool span item).map fun value => { draft with enabled := some value }
  else if key = "exclude" then some fun span item =>
    (readList readText span item).map fun value => { draft with exclude := value }
  else none

theorem readEntry_of_entries? (hentries : item.entries? = some entries) :
    readEntry span item = foldEntries entryField .blank entries := by
  rw [readEntry, readRecord_of_entries? hentries]
  congr 1
  funext draft key
  rw [lookup_cons_if, lookup_cons_if, List.lookup_nil, entryField]
  split_ifs <;> rfl

/-- What is read from the entries of a table is what they say on a detector. -/
theorem describesEntry_of_foldEntries {entry : DetectorEntry} (hentries : entries.Proper)
    (h : foldEntries entryField .blank entries = .ok entry) : DescribesEntry entries entry := by
  constructor
  · refine meansOr_foldEntries DetectorEntry.enabled hentries.distinct ?_ ?_ h
    · intro draft key read span item next hkey hread hnext
      rw [entryField, if_neg hkey] at hread
      split_ifs at hread
      cases hread
      obtain ⟨values, -, rfl⟩ := map_eq_ok_iff.1 hnext
      rfl
    · refine fun draft => ⟨_, rfl, fun span item next _ hnext => ?_⟩
      obtain ⟨value, hvalue, rfl⟩ := map_eq_ok_iff.1 hnext
      exact ⟨value, readBool_eq_ok_iff.1 hvalue, rfl⟩
  · refine meansOr_foldEntries DetectorEntry.exclude hentries.distinct ?_ ?_ h
    · intro draft key read span item next hkey hread hnext
      rw [entryField, if_neg hkey] at hread
      split_ifs at hread
      cases hread
      obtain ⟨value, -, rfl⟩ := map_eq_ok_iff.1 hnext
      rfl
    · refine fun draft => ⟨_, rfl, fun span item next hfound hnext => ?_⟩
      obtain ⟨values, hvalues, rfl⟩ := map_eq_ok_iff.1 hnext
      exact (readTexts_eq_ok_iff (hentries.of_find? hfound)).1 hvalues

/-- The entries of a table can be read if they describe something. -/
theorem exists_foldEntries_of_describesEntry {entry : DetectorEntry} (hentries : entries.Proper)
    (h : DescribesEntry entries entry) :
    ∃ final, foldEntries entryField .blank entries = .ok final := by
  refine exists_foldEntries hentries.distinct ?_ _
  intro draft key read span item hread hfound
  rw [entryField] at hread
  split_ifs at hread with hkey hkey <;> subst hkey <;> cases hread
  · obtain ⟨value, hvalue, -⟩ := h.enabled.said hfound
    exact ⟨_, map_eq_ok_iff.2 ⟨value, readBool_eq_ok_iff.2 hvalue, rfl⟩⟩
  · have hvalues := h.exclude.said hfound
    have hread : readList readText span item = .ok _ :=
      (readTexts_eq_ok_iff (hentries.of_find? hfound)).2 hvalues
    exact ⟨_, map_eq_ok_iff.2 ⟨_, hread, rfl⟩⟩

/-- An entry on a detector is what the entries of its table say. -/
theorem readEntry_eq_ok_iff {entry : DetectorEntry} (hitem : item.Proper)
    (hentries : item.entries? = some entries) :
    readEntry span item = .ok entry ↔ DescribesEntry entries entry := by
  rw [readEntry_of_entries? hentries]
  have hproper := Entries.Proper.of_entries? hitem hentries
  refine ⟨describesEntry_of_foldEntries hproper, fun h => ?_⟩
  obtain ⟨final, hfinal⟩ := exists_foldEntries_of_describesEntry hproper h
  rw [hfinal, rightUnique_describesEntry (describesEntry_of_foldEntries hproper hfinal) h]

/-- What the entries of a table say on all detectors. -/
def DescribesEntries (entries : Entries) (map : NameMap DetectorEntry) : Prop :=
  ∀ name, MeansOr (Given (Within DescribesEntry)) none (entries.item? [name]) (map.get? name)

theorem rightUnique_describesEntries : Relator.RightUnique DescribesEntries := by
  intro entries map other h h'
  refine NameMap.ext_get? fun name => ?_
  exact rightUnique_meansOr (rightUnique_given (rightUnique_within rightUnique_describesEntry))
    (h name) (h' name)

/-- The field of a map of entries that any name is. -/
def mapField (map : NameMap DetectorEntry) (name : String) :
    Option (Reader (NameMap DetectorEntry)) :=
  some fun span item => (readEntry span item).map fun entry => map.insert name entry

theorem readEntries_of_entries? (hentries : item.entries? = some entries) :
    readEntries span item = foldEntries mapField NameMap.empty entries := by
  simp only [readEntries, hentries]
  rfl

section Maps

variable (hentries : entries.Proper)
  (htables : ∀ name item, entries.item? [name] = some item → item.IsTable)

include hentries htables

/-- A table under a name is read as what its entries say. -/
theorem readEntry_of_item? {name : String} {entry : DetectorEntry}
    (hfound : entries.item? [name] = some item) :
    readEntry span item = .ok entry ↔ Within DescribesEntry item entry := by
  obtain ⟨inner, hinner⟩ := htables name item hfound
  simp only [readEntry_eq_ok_iff (hentries.of_find? hfound) hinner, Within, hinner,
    Option.some.injEq, exists_eq_left']

/-- What is read from tables is what they say on all detectors. -/
theorem describesEntries_of_foldEntries {map : NameMap DetectorEntry}
    (h : foldEntries mapField NameMap.empty entries = .ok map) : DescribesEntries entries map := by
  intro name
  refine meansOr_foldEntries (fun map => map.get? name) hentries.distinct ?_ ?_ h
  · rintro draft key read span item next hkey ⟨⟩ hnext
    obtain ⟨entry, -, rfl⟩ := map_eq_ok_iff.1 hnext
    rw [NameMap.get?_insert, if_neg hkey]
  · refine fun draft => ⟨_, rfl, fun span item next hfound hnext => ?_⟩
    obtain ⟨entry, hentry, rfl⟩ := map_eq_ok_iff.1 hnext
    exact ⟨entry, (readEntry_of_item? hentries htables hfound).1 hentry,
      (NameMap.get?_insert ..).trans (if_pos rfl)⟩

/-- Tables that each say something on a detector can be read. -/
theorem exists_foldEntries_mapField
    (hsaid : ∀ name item, entries.item? [name] = some item →
      ∃ entry, Within DescribesEntry item entry) :
    ∃ map, foldEntries mapField NameMap.empty entries = .ok map := by
  refine exists_foldEntries hentries.distinct ?_ _
  rintro draft name read span item ⟨⟩ hfound
  obtain ⟨entry, hentry⟩ := hsaid name item hfound
  have hread : readEntry span item = .ok entry :=
    (readEntry_of_item? hentries htables hfound).2 hentry
  exact ⟨_, map_eq_ok_iff.2 ⟨entry, hread, rfl⟩⟩

end Maps

/-- The entries on detectors are what their tables say. -/
theorem readEntries_eq_ok_iff {map : NameMap DetectorEntry} (hitem : item.Proper)
    (hentries : item.entries? = some entries)
    (htables : ∀ name item, entries.item? [name] = some item → item.IsTable) :
    readEntries span item = .ok map ↔ DescribesEntries entries map := by
  rw [readEntries_of_entries? hentries]
  have hproper := Entries.Proper.of_entries? hitem hentries
  refine ⟨describesEntries_of_foldEntries hproper htables, fun h => ?_⟩
  obtain ⟨final, hfinal⟩ := exists_foldEntries_mapField hproper htables fun name item hfound => by
    obtain ⟨entry, hentry, -⟩ := (h name).said hfound
    exact ⟨entry, hentry⟩
  rw [hfinal, rightUnique_describesEntries
    (describesEntries_of_foldEntries hproper htables hfinal) h]

end Config
end CodeSmells
