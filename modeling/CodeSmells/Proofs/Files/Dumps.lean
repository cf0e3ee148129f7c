import CodeSmells.Proofs.Files.Searching

/-!
# Dumps below a directory

A directory names the dumps that a search finds below it, in the order of their
paths.  The order of the listings plays no part, and the search ends well if every
directory can be opened.

**Results.**

* `discover_of_searches`, `exists_discover_iff`, `discover_eq_error`: the dumps that a directory
  names are found by every search, or there is a directory that cannot be opened.
* `resolve_pathBelow`: where the paths of the dumps lead.
-/

namespace CodeSmells
namespace FileTree

variable {tree : FileTree} {path : Path} {directory below : Location} {name : FileName}
  {found others : List Location}

section Discovery

/-- A location is that of a dump if its last names are. -/
theorem namesDump_append (directory : Location) (h : namesDump below = true) :
    namesDump (directory ++ below) = true := by
  simp only [namesDump] at h ⊢
  cases hlast : below.getLast? with
  | none =>
      rw [hlast] at h
      cases h
  | some name =>
      rw [hlast] at h
      rw [List.getLast?_append, hlast]
      exact h

/-- The paths of the dumps among locations below a directory, in their order. -/
def dumpPaths (path : Path) (found : List Location) : List Path :=
  ((found.filter namesDump).map (pathBelow path)).mergeSort fun a b => (Path.order a b).isLE

theorem discover_of_directory (h : tree.resolve path = .ok (.directory directory)) :
    tree.discover path =
      match tree.search directory tree.levels [] with
      | .error below => .error ⟨pathBelow path below, .denied⟩
      | .ok found => .ok (dumpPaths path found) := by
  rw [discover, h]
  rfl

/-- Locations with the same members have the same paths in order. -/
theorem dumpPaths_perm {names names' : List Location} (hpath : path.text ≠ "")
    (h : names.Perm names') : dumpPaths path names = dumpPaths path names' := by
  have hperm : (dumpPaths path names).Perm (dumpPaths path names') :=
    (List.mergeSort_perm _ _).trans
      (((h.filter namesDump).map _).trans (List.mergeSort_perm _ _).symm)
  refine hperm.eq_of_pairwise ?_ (pairwise_mergeSort_isLE Path.order _)
    (pairwise_mergeSort_isLE Path.order _)
  intro a b ha hb hle hge
  obtain ⟨below, -, rfl⟩ := List.mem_map.1 (List.mem_mergeSort.1 ha)
  obtain ⟨below', -, rfl⟩ := List.mem_map.1 (List.mem_mergeSort.1 hb)
  have heq : Path.order (pathBelow path below) (pathBelow path below') = .eq :=
    Std.OrientedCmp.isLE_antisymm hle hge
  rw [pathBelow_injective hpath (Std.LawfulEqOrd.eq_of_compare heq)]

/-- Whether every directory at or below a location can be opened. -/
def Opens (tree : FileTree) (directory : Location) : Prop :=
  ∀ below, tree.isDirectory (directory ++ below) = true → tree.opens directory below = true

theorem opens_of_searches (h : tree.Searches directory [[]] (.ok found)) :
    tree.Opens directory :=
  fun _ hbelow => h.opens rfl hbelow ⟨[], List.mem_cons_self, List.nil_prefix⟩

theorem exists_found (h : tree.isDirectory directory = true) (hopens : tree.Opens directory) :
    ∃ found, tree.search directory tree.levels [] = .ok found ∧
      tree.Searches directory [[]] (.ok found) := by
  have hsearch := searches_of_isDirectory h
  obtain ⟨found, hfound⟩ := hsearch.exists_ok hopens
  rw [hfound] at hsearch
  exact ⟨found, hfound, hsearch⟩

/-- Searches that end well find the same. -/
theorem Searches.perm (h : tree.Searches directory [[]] (.ok found))
    (hother : tree.Searches directory [[]] (.ok others)) : found.Perm others := by
  have hnodup := h.nodup rfl (List.pairwise_singleton _ _)
  have hnodup' := hother.nodup rfl (List.pairwise_singleton _ _)
  rw [List.perm_ext_iff_of_nodup hnodup hnodup']
  intro location
  rw [h.mem_iff rfl, hother.mem_iff rfl]

/-- Whatever the orders of the listings are, the dumps are found and sorted. -/
theorem discover_of_searches (hresolve : tree.resolve path = .ok (.directory directory))
    (h : tree.Searches directory [[]] (.ok found)) :
    tree.discover path = .ok (dumpPaths path found) := by
  obtain ⟨others, hothers, hsearch⟩ :=
    exists_found (isDirectory_of_resolve hresolve) (opens_of_searches h)
  have hpath := text_ne_empty_of_locate (resolve_eq_ok_iff.1 hresolve)
  rw [discover_of_directory hresolve, hothers, dumpPaths_perm hpath (h.perm hsearch)]

/-- The dumps that a directory names are those that a search finds. -/
theorem exists_searches_of_discover (hresolve : tree.resolve path = .ok (.directory directory))
    {paths : List Path} (h : tree.discover path = .ok paths) :
    ∃ found, tree.Searches directory [[]] (.ok found) ∧ paths = dumpPaths path found := by
  have hsearch := searches_of_isDirectory (isDirectory_of_resolve hresolve)
  rw [discover_of_directory hresolve] at h
  split at h
  next => cases h
  next found hfound =>
    cases h
    rw [hfound] at hsearch
    exact ⟨found, hsearch, rfl⟩

/-- The dumps are found if every directory can be opened, and only then. -/
theorem exists_discover_iff (hresolve : tree.resolve path = .ok (.directory directory)) :
    (∃ paths, tree.discover path = .ok paths) ↔ tree.Opens directory := by
  constructor
  · rintro ⟨paths, hpaths⟩
    obtain ⟨found, hsearch, -⟩ := exists_searches_of_discover hresolve hpaths
    exact opens_of_searches hsearch
  · intro hopens
    obtain ⟨found, -, hsearch⟩ := exists_found (isDirectory_of_resolve hresolve) hopens
    exact ⟨_, discover_of_searches hresolve hsearch⟩

/-- Otherwise a directory that cannot be opened is to blame. -/
theorem discover_eq_error (hresolve : tree.resolve path = .ok (.directory directory))
    {error : WalkError} (h : tree.discover path = .error error) :
    ∃ below, tree.Blocked directory below ∧ error = ⟨pathBelow path below, .denied⟩ := by
  have hsearch := searches_of_isDirectory (isDirectory_of_resolve hresolve)
  rw [discover_of_directory hresolve] at h
  split at h
  next below hbelow =>
    cases h
    rw [hbelow] at hsearch
    refine ⟨below, hsearch.blocked_of_error rfl ?_, rfl⟩
    intro other hother start hstart hne
    rw [List.mem_singleton.1 hother] at hstart hne
    exact absurd (List.prefix_nil.1 hstart) hne
  next => cases h

end Discovery

section Dumps

theorem opens_concat (directory above : Location) (name : FileName) :
    tree.opens directory (above ++ [name]) =
      (tree.allows .read (directory ++ (above ++ [name])) &&
        tree.allows .pass (directory ++ above)) := by
  have hne : (above ++ [name]).isEmpty = false := by simp
  rw [FileTree.opens, List.dropLast_concat, hne, Bool.false_or]

/--
The path of what stands below a directory leads there if the last directory on the
way may be passed: the others may, if those below them can be opened.
-/
theorem resolve_pathBelow (hresolve : tree.resolve path = .ok (.directory directory))
    (hopens : tree.Opens directory) {above : Location} {entry : Entry}
    (h : tree.standing? (directory ++ (above ++ [name])) = some entry) :
    tree.resolve (pathBelow path (above ++ [name])) =
      if tree.allows .pass (directory ++ above) then .ok entry else .error .denied := by
  obtain ⟨links, hlinks⟩ := exists_links hresolve
  have hpass : ∀ start, start <+: above → start ≠ above →
      tree.allows .pass (directory ++ start) = true := by
    rintro start ⟨rest, rfl⟩ hne
    cases rest with
    | nil => exact absurd (List.append_nil start).symm hne
    | cons next rest =>
        have hsplit : directory ++ (start ++ next :: rest ++ [name]) =
            directory ++ (start ++ [next]) ++ (rest ++ [name]) := by simp
        rw [hsplit] at h
        have hdirectory : tree.isDirectory (directory ++ (start ++ [next])) = true := by
          cases hrest : rest ++ [name] with
          | nil => exact absurd hrest (by simp)
          | cons first below =>
              rw [hrest] at h
              exact isDirectory_of_standing? h
        have hopen := hopens (start ++ [next]) hdirectory
        rw [opens_concat, Bool.and_eq_true] at hopen
        exact hopen.2
  rw [resolve, hlinks, walk_names hpass h]
  cases tree.allows .pass (directory ++ above) <;> rfl

end Dumps

end FileTree
end CodeSmells
