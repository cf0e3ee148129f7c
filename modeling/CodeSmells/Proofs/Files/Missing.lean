import CodeSmells.Proofs.Files.Alike
import CodeSmells.Proofs.Files.Dumps

/-!
# File trees without one file

A tree may lack one file of another tree that it is otherwise like.  If the file is no
dump, a path that stays clear of it names the same dumps in both trees.

**Results.**

* `search_alike`: searches find the same but for the missing file.
* `discover_alike`: the same dumps are found.
* `resolve_discovered`: the paths of dumps that are found lead to places that are alike.
* `present_of_gone`: a path that leads to the file leads nowhere without it.
-/

namespace CodeSmells
namespace FileTree

open Fallible

/-- The second tree lacks one file, and its other files have related bytes. -/
structure AlikeWithout (R : ByteArray → ByteArray → Prop) (missing : Location)
    (tree other : FileTree) : Prop extends AlikeBut R missing tree other where
  there : tree.HasFile missing
  gone : other.standing? missing = none

variable {R : ByteArray → ByteArray → Prop} {missing location directory below : Location}
  {tree other : FileTree} {path : Path} {name : FileName}

section Listings

theorem not_holds_of_gone (h : AlikeWithout R missing tree other) : ¬ other.Holds missing := by
  rintro (hstanding | hlink)
  · exact hstanding h.gone
  · exact hlink h.plain'.link

theorem isDirectory_alike (h : AlikeWithout R missing tree other) (location : Location) :
    tree.isDirectory location = other.isDirectory location := by
  by_cases hne : location = missing
  · rw [hne, h.plain.isDirectory, h.plain'.isDirectory]
  · have hstanding := h.standing location hne
    have hdirectory (files : FileTree) : files.isDirectory location = true ↔
        files.standing? location = some (.directory location) := by
      rw [standing?_eq_directory_iff, and_iff_right rfl]
    rw [Bool.eq_iff_iff, hdirectory, hdirectory]
    generalize tree.standing? location = found at hstanding
    generalize other.standing? location = found' at hstanding
    cases hstanding with
    | none => exact Iff.rfl
    | some halike => cases halike <;> simp

/-- The second tree holds what the first one does, but for the missing file. -/
theorem holds_alike (h : AlikeWithout R missing tree other) :
    other.Holds location ↔ tree.Holds location ∧ location ≠ missing := by
  by_cases hne : location = missing
  · rw [hne]
    exact iff_of_false (not_holds_of_gone h) fun hboth => hboth.2 rfl
  · have hstanding := h.standing location hne
    rw [Holds, Holds, h.link location hne, and_iff_left hne]
    generalize tree.standing? location = found at hstanding
    generalize other.standing? location = found' at hstanding
    cases hstanding with
    | none => exact Iff.rfl
    | some _ => simp

/-- Two listings with the same members are the same. -/
theorem listing_unique {names names' : List FileName} (hnames : names.Nodup)
    (hnames' : names'.Nodup) (h : ∀ name, name ∈ names ↔ name ∈ names')
    (hsorted : names.Pairwise fun a b => (compareOn FileName.text a b).isLE = true)
    (hsorted' : names'.Pairwise fun a b => (compareOn FileName.text a b).isLE = true) :
    names = names' := by
  refine ((List.perm_ext_iff_of_nodup hnames hnames').2 h).eq_of_pairwise ?_ hsorted hsorted'
  intro a b _ _ hle hge
  have hequal : compareOn FileName.text a b = .eq := Std.OrientedCmp.isLE_antisymm hle hge
  have hsame : a.text = b.text := Std.LawfulEqOrd.eq_of_compare hequal
  cases a
  cases b
  cases hsame
  rfl

/-- A listing lacks the missing file and is otherwise the same. -/
theorem listing_alike (h : AlikeWithout R missing tree other) (directory : Location) :
    other.listing directory =
      (tree.listing directory).filter fun name => directory ++ [name] != missing := by
  have hlists := lists_listing tree directory
  have hlists' := lists_listing other directory
  have hsorted (files : FileTree) : (files.listing directory).Pairwise
      fun a b => (compareOn FileName.text a b).isLE = true :=
    pairwise_mergeSort_isLE (compareOn FileName.text) _
  refine listing_unique hlists'.nodup (hlists.nodup.filter _) (fun name => ?_) (hsorted other)
    ((hsorted tree).filter _)
  rw [List.mem_filter, hlists.complete, hlists'.complete, holds_alike h, bne_iff_ne]

end Listings

section Searches

theorem opens_alike (h : AlikeWithout R missing tree other) :
    tree.opens directory below = other.opens directory below := by
  rw [FileTree.opens, FileTree.opens, h.allows, h.allows]

/-- A search finds the same in the second tree, but for the missing file. -/
theorem search_alike (h : AlikeWithout R missing tree other) (directory : Location)
    (levels : Nat) (below : Location) :
    other.search directory levels below =
      (tree.search directory levels below).map
        (List.filter fun found => directory ++ found != missing) := by
  induction levels generalizing below with
  | zero => rfl
  | succ levels ih =>
      by_cases hmissing : directory ++ below = missing
      · have hfound : tree.search directory (levels + 1) below = .ok [below] := by
          rcases h.there with ⟨bytes, hfile⟩ | hsealed
          · rw [search, hmissing, hfile]
          · rw [search, hmissing, hsealed]
        rw [hfound, search, hmissing, h.gone]
        simp [Except.map, hmissing]
      · have hstanding := h.standing _ hmissing
        rw [search, search]
        generalize tree.standing? (directory ++ below) = found at hstanding
        generalize other.standing? (directory ++ below) = found' at hstanding
        cases hstanding with
        | none => rfl
        | some halike =>
            cases halike with
            | file _ | sealed => simp [Except.map, hmissing]
            | directory =>
                simp only [← opens_alike h]
                cases tree.opens directory below with
                | false => rfl
                | true =>
                    have hgone : ∀ name, (directory ++ below ++ [name] != missing) = false →
                        other.search directory levels (below ++ [name]) = .ok [] := by
                      intro name hname
                      cases levels with
                      | zero => rfl
                      | succ levels =>
                          rw [search, ← List.append_assoc, bne_eq_false_iff_eq.1 hname, h.gone]
                    rw [if_pos rfl, if_pos rfl, listing_alike h, flatten_mapM_filter hgone,
                      flatten_mapM_eq_inTurn, flatten_mapM_eq_inTurn]
                    exact inTurn_eq_map_filter fun name _ => ih (below ++ [name])

/-- More levels than there are make no difference to a search. -/
theorem search_succ {levels : Nat} (hlevels : tree.levels ≤ (directory ++ below).length + levels) :
    tree.search directory (levels + 1) below = tree.search directory levels below := by
  induction levels generalizing below with
  | zero =>
      rcases holds_cases tree (directory ++ below) with hfile | hdirectory | ⟨hnone, -⟩ | hempty
      · exact absurd (length_le_of_holds hfile.holds) (by omega)
      · exact absurd (length_le_of_holds (holds_of_isDirectory hdirectory)) (by omega)
      · rw [search, search, hnone]
      · rw [Holds, not_or, not_ne_iff] at hempty
        rw [search, search, hempty.1]
  | succ levels ih =>
      rw [search, search]
      have hnext : ∀ name : FileName, tree.search directory (levels + 1) (below ++ [name]) =
          tree.search directory levels (below ++ [name]) := by
        intro name
        refine ih ?_
        rw [← List.append_assoc, List.length_append, List.length_singleton]
        omega
      simp only [hnext]

theorem search_of_levels_le {levels : Nat} (hlevels : tree.levels ≤ levels) :
    tree.search directory levels [] = tree.search directory tree.levels [] := by
  induction hlevels with
  | refl => rfl
  | step hlevels ih => rw [search_succ (Nat.le_trans hlevels (Nat.le_add_left _ _)), ih]

/-- The whole search finds the same, but for the missing file. -/
theorem search_levels_alike (h : AlikeWithout R missing tree other) (directory : Location) :
    other.search directory other.levels [] =
      (tree.search directory tree.levels []).map
        (List.filter fun found => directory ++ found != missing) := by
  have halike := search_alike h directory (max tree.levels other.levels) []
  rwa [search_of_levels_le (Nat.le_max_left _ _), search_of_levels_le (Nat.le_max_right _ _)]
    at halike

end Searches

section Dumps

/-- A file that is no dump is not among the dumps. -/
theorem dumpPaths_filter (hmissing : namesDump missing = false) (directory : Location)
    (path : Path) (found : List Location) :
    dumpPaths path (found.filter fun below => directory ++ below != missing) =
      dumpPaths path found := by
  have hdumps : (found.filter fun below => directory ++ below != missing).filter namesDump =
      found.filter namesDump := by
    rw [List.filter_filter]
    refine List.filter_congr fun below _ => ?_
    cases hdump : namesDump below with
    | false => rfl
    | true =>
        rw [Bool.true_and, bne_iff_ne]
        rintro rfl
        rw [namesDump_append directory hdump] at hmissing
        cases hmissing
  rw [dumpPaths, dumpPaths, hdumps]

/-- A path names the same dumps in both trees. -/
theorem discover_alike (h : AlikeWithout R missing tree other)
    (hmissing : namesDump missing = false) (hclear : tree.IsClearOf path missing) :
    tree.discover path = other.discover path := by
  have halike := resolve_alike h.toAlikeBut h.there hclear
  generalize hentry : tree.resolve path = entry at halike
  generalize hentry' : other.resolve path = entry' at halike
  cases halike with
  | error => rw [discover, discover, hentry, hentry']
  | ok halike =>
      cases halike with
      | file _ => rw [discover_of_resolve hentry, discover_of_resolve hentry']
      | sealed => rw [discover_of_sealed hentry, discover_of_sealed hentry']
      | @directory location =>
          rw [discover_of_directory hentry, discover_of_directory hentry',
            search_levels_alike h location]
          cases tree.search location tree.levels [] with
          | error below => rfl
          | ok found =>
              exact congrArg Except.ok (dumpPaths_filter hmissing location path found).symm

theorem opens_all_alike (h : AlikeWithout R missing tree other) (hopens : tree.Opens directory) :
    other.Opens directory := by
  intro below hbelow
  rw [← opens_alike h]
  exact hopens below ((isDirectory_alike h _).trans hbelow)

/-- The path of a dump below a directory that can be searched leads to what is alike. -/
theorem resolve_pathBelow_alike (h : AlikeWithout R missing tree other)
    (hmissing : namesDump missing = false)
    (hdirectory : tree.resolve path = .ok (.directory directory))
    (hdirectory' : other.resolve path = .ok (.directory directory))
    (hopens : tree.Opens directory) (hfile : tree.HasFile (directory ++ below))
    (hdump : namesDump below = true) :
    Agree (Entry.Alike R) (tree.resolve (pathBelow path below))
      (other.resolve (pathBelow path below)) := by
  obtain ⟨above, name, rfl⟩ : ∃ above name, below = above ++ [name] := by
    rcases List.eq_nil_or_concat below with rfl | ⟨above, name, rfl⟩
    · cases hdump
    · exact ⟨above, name, List.concat_eq_append⟩
  have hne : directory ++ (above ++ [name]) ≠ missing := by
    rintro rfl
    rw [namesDump_append directory hdump] at hmissing
    cases hmissing
  obtain ⟨entry, hstands⟩ := hfile.exists_standing
  have hstanding := h.standing _ hne
  rw [hstands] at hstanding
  generalize hstands' : other.standing? (directory ++ (above ++ [name])) = standing at hstanding
  cases hstanding with
  | some hentries =>
      rw [resolve_pathBelow hdirectory hopens hstands,
        resolve_pathBelow hdirectory' (opens_all_alike h hopens) hstands', ← h.allows]
      split_ifs
      · exact .ok hentries
      · exact .error

/-- The dumps that are found are alike in both trees. -/
theorem resolve_discovered (h : AlikeWithout R missing tree other)
    (hmissing : namesDump missing = false) (hclear : tree.IsClearOf path missing)
    {paths : List Path} (hpaths : tree.discover path = .ok paths) {found : Path}
    (hfound : found ∈ paths) :
    Agree (Entry.Alike R) (tree.resolve found) (other.resolve found) := by
  have halike := resolve_alike h.toAlikeBut h.there hclear
  generalize hentry : tree.resolve path = entry at halike
  generalize hentry' : other.resolve path = entry' at halike
  have hown : found = path → Agree (Entry.Alike R) (tree.resolve found) (other.resolve found) := by
    rintro rfl
    rw [hentry, hentry']
    exact halike
  cases halike with
  | error =>
      rw [discover, hentry] at hpaths
      cases hpaths
  | ok hkind =>
      cases hkind with
      | file _ =>
          rw [discover_of_resolve hentry] at hpaths
          cases hpaths
          exact hown (List.mem_singleton.1 hfound)
      | sealed =>
          rw [discover_of_sealed hentry] at hpaths
          cases hpaths
          exact hown (List.mem_singleton.1 hfound)
      | @directory location =>
          have hopens := (exists_discover_iff hentry).1 ⟨paths, hpaths⟩
          obtain ⟨locations, -, hsearch⟩ := exists_found (isDirectory_of_resolve hentry) hopens
          rw [discover_of_searches hentry hsearch] at hpaths
          cases hpaths
          obtain ⟨below, hbelow, rfl⟩ := List.mem_map.1 (List.mem_mergeSort.1 hfound)
          obtain ⟨hmem, hdump⟩ := List.mem_filter.1 hbelow
          exact resolve_pathBelow_alike h hmissing hentry hentry' hopens
            ((hsearch.mem_iff rfl).1 hmem).1 hdump

/-- A path that leads to the missing file leads nowhere in the second tree. -/
theorem present_of_gone (h : AlikeWithout R missing tree other) {entry : Entry}
    (hresolve : tree.resolve path = .ok entry) (hentry : entry.location = missing) :
    other.present path = false := by
  obtain ⟨directory, name, rfl⟩ : ∃ directory name, missing = directory ++ [name] := by
    rcases List.eq_nil_or_concat missing with rfl | ⟨directory, name, rfl⟩
    · have hroot := h.plain.isDirectory
      rw [isDirectory_nil] at hroot
      cases hroot
    · exact ⟨directory, name, List.concat_eq_append⟩
  have hplace := locate_to_location h.toAlikeBut (resolve_eq_ok_iff.1 hresolve) hentry
  rw [placeAt, h.gone] at hplace
  rw [present, resolve, hplace]

end Dumps

end FileTree
end CodeSmells
