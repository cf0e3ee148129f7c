import CodeSmells.Settings
import CodeSmells.Proofs.Json.Printing
import CodeSmells.Proofs.Json.Reading

/-!
# Entries on detectors and their JSON

An entry is written without what is not said in it, and what is left out is read
as not said.

**Results.**

* `read_of_holds`: an entry is read from a tree of its JSON.
* `writes_toJson`: an entry is printed as a text of its JSON.
-/

namespace CodeSmells.DetectorEntry

open Json Fallible

variable {room : Nat} {node : Node} {entry : DetectorEntry}

theorem field_enabled (room : Nat) (draft : Draft) (h : draft.enabled = none) :
    field room draft "enabled" = .known fun node =>
      (readOptional readBool room node).map fun value => { draft with enabled := some value } := by
  simp [field, h]

theorem field_exclude (room : Nat) (draft : Draft) (h : draft.exclude = none) :
    field room draft "exclude" = .known fun node =>
      (readList (readText .string) room node).map fun value =>
        { draft with exclude := some value } := by
  simp [field, h]

/-- Patterns are found where they are written, and none where they are left out. -/
theorem foldExclude_of_holds {entries : Entries} {patterns : List String}
    (enabled : Option (Option Bool))
    (h : entries.Holds (if patterns.isEmpty then [] else
      [("exclude", .array (patterns.map Json.text))])) :
    ∃ draft stop, entries.fold (field (room + 1)) ⟨enabled, none⟩ = .ok (draft, stop) ∧
      draft.enabled = enabled ∧ draft.exclude.getD [] = patterns := by
  cases patterns with
  | nil =>
      obtain ⟨stop, hstop⟩ := fold_of_holds_nil _ _ h
      exact ⟨_, stop, hstop, rfl, rfl⟩
  | cons pattern patterns =>
      obtain ⟨more, hmore, hfold⟩ := fold_of_holds_cons h (field_exclude _ ⟨enabled, none⟩ rfl)
        fun node hnode => readList_of_holds hnode fun x _ item hitem => readText_of_holds hitem
      obtain ⟨stop, hstop⟩ := fold_of_holds_nil _ _ hmore
      exact ⟨_, stop, hfold.trans hstop, rfl, rfl⟩

/-- An entry is read from a tree of its JSON. -/
theorem read_of_holds (h : node.Holds entry.toJson) : read (room + 2) node = .ok entry := by
  obtain ⟨enabled, exclude⟩ := entry
  cases h with
  | @object start entries _ hentries =>
      have hread : ∀ draft stop,
          entries.fold (field (room + 1)) ⟨none, none⟩ = .ok (draft, stop) →
          draft.enabled.getD none = enabled → draft.exclude.getD [] = exclude →
          read (room + 2) (.object start entries) = .ok ⟨enabled, exclude⟩ := by
        rintro draft stop hfold rfl rfl
        rw [read, enter]
        simp only [hfold, ok_bind]
      cases enabled with
      | none =>
          obtain ⟨draft, stop, hfold, henabled, hexclude⟩ := foldExclude_of_holds none hentries
          exact hread draft stop hfold (by rw [henabled]; rfl) hexclude
      | some value =>
          obtain ⟨more, hmore, hfirst⟩ := fold_of_holds_cons hentries
            (field_enabled _ ⟨none, none⟩ rfl) fun node hnode => readOptional_of_holds hnode
          obtain ⟨draft, stop, hfold, henabled, hexclude⟩ :=
            foldExclude_of_holds (some (some value)) hmore
          exact hread draft stop (hfirst.trans hfold) (by rw [henabled]; rfl) hexclude

/-- An entry is printed as a text of its JSON. -/
theorem writes_toJson (entry : DetectorEntry) : Writes entry.toJson entry.toJson.render := by
  obtain ⟨enabled, exclude⟩ := entry
  apply writes_object
  intro e he
  rcases List.mem_append.1 he with henabled | hexclude
  · cases enabled with
    | none => cases henabled
    | some value =>
        rw [List.mem_singleton.1 henabled]
        exact writes_bool value
  · by_cases hempty : exclude.isEmpty
    · simp [hempty] at hexclude
    · simp only [hempty] at hexclude
      rw [List.mem_singleton.1 hexclude]
      apply writes_array
      intro v hv
      obtain ⟨pattern, -, rfl⟩ := List.mem_map.1 hv
      exact writes_text pattern

end CodeSmells.DetectorEntry
