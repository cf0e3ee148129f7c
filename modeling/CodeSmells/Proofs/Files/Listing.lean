import CodeSmells.Proofs.Files.Walking
import Mathlib.Data.List.Nodup

/-!
# What directories hold

**Results.**

* `holds_cases`: what may stand at a location.
* `exists_known`, `holds_of_known`: what stands somewhere is at or above a known location.
* `lists_listing`: a directory lists its entries.
-/

namespace CodeSmells
namespace FileTree

variable {tree : FileTree} {directory location below : Location} {name : FileName}
  {names : List FileName}

section Entries

/-- Whether a file stands at a location, one that may be read or one that may not. -/
def HasFile (tree : FileTree) (location : Location) : Prop :=
  (∃ bytes, tree.standing? location = some (.file location bytes)) ∨
    tree.standing? location = some (.sealed location)

/-- Whether a file, a directory or a link stands at a location. -/
def Holds (tree : FileTree) (location : Location) : Prop :=
  tree.standing? location ≠ none ∨ tree.link? location ≠ none

/-- A file, a directory or a link stands at a location, or nothing does. -/
theorem holds_cases (tree : FileTree) (location : Location) :
    tree.HasFile location ∨ tree.isDirectory location = true ∨
      (tree.standing? location = none ∧ ∃ target, tree.link? location = some target) ∨
      ¬ tree.Holds location := by
  rcases standing?_cases tree location with hnone | hdirectory | hsealed | hfile
  · cases hlink : tree.link? location with
    | none => exact .inr (.inr (.inr (by simp [Holds, hnone, hlink])))
    | some target => exact .inr (.inr (.inl ⟨hnone, target, rfl⟩))
  · exact .inr (.inl (standing?_eq_directory_iff.1 hdirectory).2)
  · exact .inl (.inr hsealed)
  · exact .inl (.inl hfile)

theorem HasFile.exists_standing (h : tree.HasFile location) :
    ∃ entry, tree.standing? location = some entry := by
  rcases h with ⟨bytes, hfile⟩ | hsealed
  · exact ⟨_, hfile⟩
  · exact ⟨_, hsealed⟩

theorem HasFile.holds (h : tree.HasFile location) : tree.Holds location := by
  obtain ⟨entry, hentry⟩ := h.exists_standing
  exact .inl (by rw [hentry]; exact Option.some_ne_none _)

theorem holds_of_isDirectory (h : tree.isDirectory location = true) : tree.Holds location :=
  .inl (by rw [standing?_of_isDirectory h]; exact Option.some_ne_none _)

/-- No file is a directory as well. -/
theorem HasFile.isDirectory (h : tree.HasFile location) : tree.isDirectory location = false := by
  rw [← Bool.not_eq_true]
  intro hdirectory
  rw [HasFile, standing?_of_isDirectory hdirectory] at h
  rcases h with ⟨bytes, hfile⟩ | hsealed
  · cases hfile
  · cases hsealed

theorem isDirectory_of_link? {target : Path} (h : tree.link? location = some target) :
    tree.isDirectory location = false := by
  rw [← Bool.not_eq_true]
  intro hdirectory
  rw [link?_of_isDirectory hdirectory] at h
  cases h

/-- Whatever is below something that is no directory, no file is. -/
theorem not_hasFile_below (h : tree.isDirectory location = false) {rest : Location} :
    ¬ tree.HasFile (location ++ name :: rest) := by
  intro hfile
  obtain ⟨entry, hentry⟩ := hfile.exists_standing
  rw [isDirectory_of_standing? hentry] at h
  cases h

/-- On the way to something that stands there is an entry after each directory. -/
theorem holds_of_standing? {entry : Entry} {rest : Location}
    (h : tree.standing? (location ++ name :: rest) = some entry) :
    tree.Holds (location ++ [name]) := by
  cases rest with
  | nil => exact .inl (by rw [h]; exact Option.some_ne_none _)
  | cons next rest =>
      rw [← List.singleton_append, ← List.append_assoc] at h
      exact holds_of_isDirectory (isDirectory_of_standing? h)

end Entries

section Listings

/-- A directory lists the names of its entries, each once. -/
structure Lists (tree : FileTree) (directory : Location) (names : List FileName) : Prop where
  nodup : names.Nodup
  complete : ∀ name, name ∈ names ↔ tree.Holds (directory ++ [name])

/-- What stands somewhere is at or above a known location. -/
theorem exists_known (h : tree.Holds location) : ∃ other ∈ tree.known, location <+: other := by
  have hnode : ∀ node, tree.node? location = some node →
      ∃ other ∈ tree.known, location <+: other := fun node hnode =>
    ⟨location, List.mem_cons_of_mem _ (List.mem_map_of_mem (node_mem_of_node? hnode)),
      List.prefix_rfl⟩
  by_cases hdirectory : tree.isDirectory location = true
  · rcases isDirectory_iff.1 hdirectory with hworking | ⟨e, he, hunder, -⟩
    · exact ⟨_, List.mem_cons_self, hworking⟩
    · exact ⟨e.1, List.mem_cons_of_mem _ (List.mem_map_of_mem he), hunder⟩
  · rcases h with hstanding | hlink
    · obtain ⟨entry, hentry⟩ := Option.ne_none_iff_exists'.1 hstanding
      obtain ⟨node, hnode'⟩ := (node?_of_standing? hentry).resolve_left hdirectory
      exact hnode node hnode'
    · obtain ⟨target, htarget⟩ := Option.ne_none_iff_exists'.1 hlink
      rw [link?, if_neg hdirectory] at htarget
      obtain ⟨node, hnode', -⟩ := Option.bind_eq_some_iff.1 htarget
      exact hnode node hnode'

theorem length_le_of_holds (h : tree.Holds location) :
    location.length < tree.levels := by
  obtain ⟨other, hother, hunder⟩ := exists_known h
  have hshort := hunder.length_le
  have hlong := (List.sublist_flatten_of_mem hother).length_le
  rw [levels]
  omega

theorem node?_of_mem {node : Node} (h : (location, node) ∈ tree.nodes) :
    tree.node? location = some node := by
  have hsome : (tree.node? location).isSome = true :=
    List.lookup_isSome_iff.2 ⟨_, h, beq_self_eq_true location⟩
  obtain ⟨other, hother⟩ := Option.isSome_iff_exists.1 hsome
  have hsame := List.inj_on_of_nodup_map tree.distinct (node_mem_of_node? hother) h rfl
  rw [hother, (Prod.mk.inj hsame).2]

theorem prefix_entry (directory rest : Location) (name : FileName) :
    directory ++ [name] <+: directory ++ name :: rest :=
  (List.prefix_append_right_inj directory).2 (List.prefix_append [name] rest)

/-- Above a known location there are entries of the names in it. -/
theorem holds_of_known {rest : Location} (h : directory ++ name :: rest ∈ tree.known) :
    tree.Holds (directory ++ [name]) := by
  have hunder := prefix_entry directory rest name
  by_cases hdirectory : tree.isDirectory (directory ++ [name]) = true
  · exact holds_of_isDirectory hdirectory
  rcases List.mem_cons.1 h with hworking | hnode
  · rw [hworking] at hunder
    exact absurd (isDirectory_iff.2 (.inl hunder)) hdirectory
  · obtain ⟨⟨_, node⟩, hmem, rfl⟩ := List.mem_map.1 hnode
    cases rest with
    | cons next rest =>
        refine absurd (isDirectory_iff.2 (.inr ⟨_, hmem, hunder, .inl ?_⟩)) hdirectory
        simp
    | nil =>
        have hnode := node?_of_mem hmem
        cases node with
        | directory =>
            exact absurd (isDirectory_iff.2 (.inr ⟨_, hmem, hunder, .inr rfl⟩)) hdirectory
        | file bytes =>
            left
            rw [standing?, if_neg hdirectory, file?, hnode]
            exact Option.some_ne_none _
        | link target =>
            right
            rw [link?, if_neg hdirectory, hnode]
            exact Option.some_ne_none _

theorem nextName?_eq_some_iff :
    nextName? directory location = some name ↔ ∃ rest, location = directory ++ name :: rest := by
  rw [nextName?]
  by_cases hunder : directory.isPrefixOf location = true
  · rw [if_pos hunder]
    obtain ⟨below, rfl⟩ := List.isPrefixOf_iff_prefix.1 hunder
    rw [List.drop_left, List.head?_eq_some_iff]
    simp
  · rw [if_neg hunder]
    constructor
    · rintro ⟨⟩
    · rintro ⟨rest, rfl⟩
      exact absurd (List.isPrefixOf_iff_prefix.2 (List.prefix_append _ _)) hunder

/-- Leaving out repetitions leaves none. -/
theorem nodup_eraseDups (names : List FileName) : names.eraseDups.Nodup := by
  induction hlength : names.length using Nat.strongRecOn generalizing names with
  | ind length ih =>
      cases names with
      | nil => simp
      | cons name names =>
          have hshorter := List.length_filter_le (fun other => !other == name) names
          rw [List.eraseDups_cons, List.nodup_cons]
          refine ⟨by simp, ih _ ?_ _ rfl⟩
          rw [← hlength, List.length_cons]
          omega

/-- The names that follow a directory in what is known are those of its entries. -/
theorem lists_known (tree : FileTree) (directory : Location) :
    tree.Lists directory (tree.known.filterMap (nextName? directory)).eraseDups := by
  refine ⟨nodup_eraseDups _, fun name => ?_⟩
  rw [List.mem_eraseDups, List.mem_filterMap]
  constructor
  · rintro ⟨other, hother, hnext⟩
    obtain ⟨rest, rfl⟩ := nextName?_eq_some_iff.1 hnext
    exact holds_of_known hother
  · intro hholds
    obtain ⟨other, hother, rest, rfl⟩ := exists_known hholds
    exact ⟨_, hother, nextName?_eq_some_iff.2 ⟨rest, by simp⟩⟩

/-- The order of a listing is of no account. -/
theorem Lists.of_perm {names others : List FileName} (h : tree.Lists directory names)
    (hperm : others.Perm names) : tree.Lists directory others :=
  ⟨hperm.nodup_iff.2 h.nodup, fun name => hperm.mem_iff.trans (h.complete name)⟩

/-- The listing that is computed lists the entries of a directory. -/
theorem lists_listing (tree : FileTree) (directory : Location) :
    tree.Lists directory (tree.listing directory) :=
  (lists_known tree directory).of_perm (List.mergeSort_perm _ _)

end Listings

end FileTree
end CodeSmells
