import CodeSmells.Proofs.Fallible
import CodeSmells.Proofs.Files.Below
import CodeSmells.Proofs.Files.Listing

/-!
# Searching directories

A search keeps a list of what is pending.  A file is found, a link is left alone, and
a directory that can be opened gives way to its entries, in the order in which it
happens to list them; a directory that cannot be opened ends the search.  Whatever the
orders are, a search that ends well finds the same files, each once.

**Results.**

* `searches_search`: the search that is computed follows the rules.
* `Searches.mem_iff`, `Searches.nodup`: what a search finds.
* `Searches.opens`, `Searches.blocked_of_error`, `Searches.exists_ok`: when a search ends well.
-/

namespace CodeSmells
namespace FileTree

open Fallible

variable {tree : FileTree} {path : Path} {directory location below : Location}
  {name : FileName} {names : List FileName} {pending others found : List Location}
  {result more : Except Location (List Location)}

section Searches

/-- A search below a directory goes from what is pending to what is found, or to what ends it. -/
inductive Searches (tree : FileTree) (directory : Location) :
    List Location → Except Location (List Location) → Prop
  | done : Searches tree directory [] (.ok [])
  | file {below : Location} {pending : List Location}
      {result : Except Location (List Location)} :
      tree.HasFile (directory ++ below) → Searches tree directory pending result →
      Searches tree directory (below :: pending) (result.map (below :: ·))
  | skip {below : Location} {target : Path} {pending : List Location}
      {result : Except Location (List Location)} :
      tree.link? (directory ++ below) = some target → Searches tree directory pending result →
      Searches tree directory (below :: pending) result
  | listing {below : Location} {names : List FileName} {pending : List Location}
      {result : Except Location (List Location)} :
      tree.isDirectory (directory ++ below) = true →
      tree.opens directory below = true →
      tree.Lists (directory ++ below) names →
      Searches tree directory ((names.map fun name => below ++ [name]) ++ pending) result →
      Searches tree directory (below :: pending) result
  | blocked {below : Location} {pending : List Location} :
      tree.isDirectory (directory ++ below) = true →
      tree.opens directory below = false →
      Searches tree directory (below :: pending) (.error below)

/-- The findings of two searches, the first one's first. -/
def joined : Except Location (List Location) → Except Location (List Location) →
    Except Location (List Location)
  | .error below, _ => .error below
  | .ok found, more => more.map (found ++ ·)

theorem joined_nil (more : Except Location (List Location)) : joined (.ok []) more = more := by
  cases more <;> rfl

theorem joined_cons (below : Location) (result more : Except Location (List Location)) :
    joined (result.map (below :: ·)) more = (joined result more).map (below :: ·) := by
  cases result <;> cases more <;> rfl

theorem inTurn_cons (search : FileName → Except Location (List Location)) (name : FileName)
    (names : List FileName) :
    inTurn search (name :: names) = joined (search name) (inTurn search names) := by
  rw [inTurn]
  cases search name <;> rfl

/-- What is searched first is found first, and may end the search. -/
theorem Searches.append (h : tree.Searches directory pending result)
    (hmore : tree.Searches directory others more) :
    tree.Searches directory (pending ++ others) (joined result more) := by
  induction h with
  | done =>
      rw [joined_nil]
      exact hmore
  | file hfile _ ih =>
      rw [joined_cons]
      exact .file hfile ih
  | skip hlink _ ih => exact .skip hlink ih
  | listing hdirectory hopens hlists _ ih =>
      rw [List.append_assoc] at ih
      exact .listing hdirectory hopens hlists ih
  | blocked hdirectory hopens => exact .blocked hdirectory hopens

/-- What can be searched one by one can be searched in turn. -/
theorem searches_inTurn {search : FileName → Except Location (List Location)}
    (h : ∀ name ∈ names, tree.Searches directory [below ++ [name]] (search name)) :
    tree.Searches directory (names.map fun name => below ++ [name]) (inTurn search names) := by
  induction names with
  | nil => exact .done
  | cons name names ih =>
      rw [inTurn_cons, List.map_cons, ← List.singleton_append]
      exact (h name List.mem_cons_self).append
        (ih fun other hother => h other (List.mem_cons_of_mem name hother))

/--
The search that is computed follows the rules: what is known bounds how deep the
entries of a directory are.
-/
theorem searches_search {levels : Nat} (hholds : tree.Holds (directory ++ below))
    (hlevels : tree.levels ≤ (directory ++ below).length + levels) :
    tree.Searches directory [below] (tree.search directory levels below) := by
  induction levels generalizing below with
  | zero =>
      have hshort := length_le_of_holds hholds
      omega
  | succ levels ih =>
      rcases holds_cases tree (directory ++ below) with hfile | hdirectory |
        ⟨hnone, target, htarget⟩ | hempty
      · have hfound : tree.search directory (levels + 1) below = .ok [below] := by
          rcases hfile with ⟨bytes, hfile⟩ | hsealed
          · rw [search, hfile]
          · rw [search, hsealed]
        rw [hfound]
        exact .file hfile .done
      · rw [search, standing?_of_isDirectory hdirectory]
        cases hopens : tree.opens directory below with
        | false => exact .blocked hdirectory hopens
        | true =>
            have hlists := lists_listing tree (directory ++ below)
            refine .listing hdirectory hopens hlists ?_
            rw [if_pos rfl, flatten_mapM_eq_inTurn, List.append_nil]
            refine searches_inTurn fun name hname => ih ?_ ?_
            · rw [← List.append_assoc]
              exact (hlists.complete name).1 hname
            · rw [← List.append_assoc, List.length_append, List.length_singleton]
              omega
      · rw [search, hnone]
        exact .skip htarget .done
      · exact absurd hholds hempty

/-- Every directory can be searched. -/
theorem searches_of_isDirectory (h : tree.isDirectory directory = true) :
    tree.Searches directory [[]] (tree.search directory tree.levels []) := by
  refine searches_search ?_ (Nat.le_add_left _ _)
  rw [List.append_nil]
  exact holds_of_isDirectory h

end Searches

section Findings

/-- A file is below a directory exactly if it is at or below an entry that is listed. -/
theorem Lists.under_iff (h : tree.Lists (directory ++ below) names) {entry : Entry}
    (hentry : tree.standing? (directory ++ location) = some entry) (hne : location ≠ below) :
    below <+: location ↔ ∃ name ∈ names, below ++ [name] <+: location := by
  constructor
  · rintro ⟨rest, rfl⟩
    cases rest with
    | nil => exact absurd (List.append_nil below) hne
    | cons name rest =>
        rw [← List.append_assoc] at hentry
        refine ⟨name, (h.complete name).2 (holds_of_standing? hentry), ?_⟩
        exact prefix_entry below rest name
  · rintro ⟨name, -, hunder⟩
    exact (List.prefix_append below [name]).trans hunder

/-- A search that ends well finds the files at or below what is pending. -/
theorem Searches.mem_iff (h : tree.Searches directory pending result)
    (hresult : result = .ok found) :
    location ∈ found ↔
      tree.HasFile (directory ++ location) ∧ ∃ below ∈ pending, below <+: location := by
  -- Nothing is below what is no directory.
  have hown : ∀ below, tree.isDirectory (directory ++ below) = false →
      tree.HasFile (directory ++ location) → below <+: location → location = below := by
    rintro below hbelow hfile ⟨rest, rfl⟩
    cases rest with
    | nil => exact List.append_nil below
    | cons name rest =>
        rw [← List.append_assoc] at hfile
        exact absurd hfile (not_hasFile_below hbelow)
  induction h generalizing found with
  | done =>
      cases hresult
      simp
  | @file below pending result hfile _ ih =>
      obtain ⟨rest, hrest, rfl⟩ := map_eq_ok_iff.1 hresult
      rw [List.mem_cons]
      refine (or_congr_right (ih hrest)).trans ?_
      constructor
      · rintro (rfl | ⟨hother, other, hmem, hunder⟩)
        · exact ⟨hfile, location, List.mem_cons_self, List.prefix_rfl⟩
        · exact ⟨hother, other, List.mem_cons_of_mem below hmem, hunder⟩
      · rintro ⟨hother, other, hmem, hunder⟩
        rcases List.mem_cons.1 hmem with rfl | hmem
        · exact .inl (hown _ hfile.isDirectory hother hunder)
        · exact .inr ⟨hother, other, hmem, hunder⟩
  | @skip below target pending result hlink _ ih =>
      refine (ih hresult).trans (and_congr_right fun hother => ?_)
      rw [List.exists_mem_cons_iff]
      refine (or_iff_right fun hunder => ?_).symm
      obtain rfl := hown below (isDirectory_of_link? hlink) hother hunder
      obtain ⟨entry, hentry⟩ := hother.exists_standing
      rw [link?_of_standing? hentry] at hlink
      cases hlink
  | @listing below names pending result hdirectory _ hlists _ ih =>
      refine (ih hresult).trans (and_congr_right fun hother => ?_)
      obtain ⟨entry, hentry⟩ := hother.exists_standing
      have hne : location ≠ below := by
        rintro rfl
        rw [hother.isDirectory] at hdirectory
        cases hdirectory
      rw [List.exists_mem_cons_iff, hlists.under_iff hentry hne]
      simp only [List.mem_append, List.mem_map, or_and_right, exists_or, exists_exists_and_eq_and]
  | blocked _ _ => cases hresult

/-- Of two locations neither is at or below the other. -/
def Apart (location other : Location) : Prop :=
  ¬ location <+: other ∧ ¬ other <+: location

/-- The entries of a directory are apart from each other. -/
theorem pairwise_apart_entries (below : Location) (h : names.Nodup) :
    (names.map fun name => below ++ [name]).Pairwise Apart := by
  refine List.pairwise_map.2 (h.imp ?_)
  intro name other hne
  simp only [Apart, List.prefix_append_right_inj, List.cons_prefix_cons, List.nil_prefix, and_true]
  exact ⟨hne, Ne.symm hne⟩

/-- What is apart from a directory is apart from its entries. -/
theorem Apart.entry {other : Location} (h : Apart below other) (name : FileName) :
    Apart (below ++ [name]) other := by
  refine ⟨fun hunder => h.1 ((List.prefix_append below [name]).trans hunder), fun hunder => ?_⟩
  rcases List.prefix_concat_iff.1 hunder with rfl | hbelow
  · exact h.1 (List.prefix_append below [name])
  · exact h.2 hbelow

/-- A search finds nothing twice. -/
theorem Searches.nodup (h : tree.Searches directory pending result) (hresult : result = .ok found)
    (hpending : pending.Pairwise Apart) : found.Nodup := by
  induction h generalizing found with
  | done =>
      cases hresult
      exact List.nodup_nil
  | file hfile hrest ih =>
      obtain ⟨rest, hfound, rfl⟩ := map_eq_ok_iff.1 hresult
      rw [List.pairwise_cons] at hpending
      refine List.nodup_cons.2 ⟨fun hagain => ?_, ih hfound hpending.2⟩
      obtain ⟨-, other, hother, hunder⟩ := (hrest.mem_iff hfound).1 hagain
      exact (hpending.1 other hother).2 hunder
  | skip _ _ ih => exact ih hresult (List.pairwise_cons.1 hpending).2
  | @listing below names pending result _ _ hlists _ ih =>
      rw [List.pairwise_cons] at hpending
      refine ih hresult (List.pairwise_append.2
        ⟨pairwise_apart_entries below hlists.nodup, hpending.2, fun entry hname other hother => ?_⟩)
      obtain ⟨name, -, rfl⟩ := List.mem_map.1 hname
      exact (hpending.1 other hother).entry name
  | blocked _ _ => cases hresult

end Findings

section Endings

/-- If every directory can be opened, a search ends well. -/
theorem Searches.exists_ok (h : tree.Searches directory pending result)
    (hopens : ∀ below, tree.isDirectory (directory ++ below) = true →
      tree.opens directory below = true) : ∃ found, result = .ok found := by
  induction h with
  | done => exact ⟨[], rfl⟩
  | file _ _ ih =>
      obtain ⟨found, rfl⟩ := ih
      exact ⟨_, rfl⟩
  | skip _ _ ih => exact ih
  | listing _ _ _ _ ih => exact ih
  | blocked hdirectory hblocked =>
      rw [hopens _ hdirectory] at hblocked
      cases hblocked

/-- A search that ends well has opened every directory at or below what was pending. -/
theorem Searches.opens (h : tree.Searches directory pending result) (hresult : result = .ok found)
    (hlocation : tree.isDirectory (directory ++ location) = true)
    (hunder : ∃ below ∈ pending, below <+: location) : tree.opens directory location = true := by
  have habove : ∀ below, below <+: location → tree.isDirectory (directory ++ below) = true :=
    fun below hbelow => isDirectory_of_under hlocation
      ((List.prefix_append_right_inj directory).2 hbelow)
  induction h generalizing found with
  | done => simp at hunder
  | file hfile _ ih =>
      obtain ⟨rest, hrest, -⟩ := map_eq_ok_iff.1 hresult
      rcases (List.exists_mem_cons_iff _ _ _).1 hunder with hbelow | hunder
      · have hdirectory := habove _ hbelow
        rw [hfile.isDirectory] at hdirectory
        cases hdirectory
      · exact ih hrest hunder
  | skip hlink _ ih =>
      rcases (List.exists_mem_cons_iff _ _ _).1 hunder with hbelow | hunder
      · have hdirectory := habove _ hbelow
        rw [isDirectory_of_link? hlink] at hdirectory
        cases hdirectory
      · exact ih hresult hunder
  | @listing below names pending result hdirectory hopens hlists _ ih =>
      rcases (List.exists_mem_cons_iff _ _ _).1 hunder with hbelow | ⟨other, hother, hunder⟩
      · by_cases hsame : location = below
        · rw [hsame]
          exact hopens
        · obtain ⟨name, hname, hunder⟩ :=
            (hlists.under_iff (standing?_of_isDirectory hlocation) hsame).1 hbelow
          exact ih hresult
            ⟨_, List.mem_append_left _ (List.mem_map_of_mem hname), hunder⟩
      · exact ih hresult ⟨other, List.mem_append_right _ hother, hunder⟩
  | blocked _ _ => cases hresult

/-- A directory cannot be opened, though those on the way to it can. -/
structure Blocked (tree : FileTree) (directory below : Location) : Prop where
  isDirectory : tree.isDirectory (directory ++ below) = true
  blocked : tree.opens directory below = false
  above : ∀ start, start <+: below → start ≠ below → tree.opens directory start = true

/-- What ends a search cannot be opened. -/
theorem Searches.blocked_of_error (h : tree.Searches directory pending result)
    (hresult : result = .error below)
    (hpending : ∀ other ∈ pending, ∀ start, start <+: other → start ≠ other →
      tree.opens directory start = true) : tree.Blocked directory below := by
  induction h with
  | done => cases hresult
  | file _ _ ih =>
      exact ih (map_eq_error_iff.1 hresult) fun other hother =>
        hpending other (List.mem_cons_of_mem _ hother)
  | skip _ _ ih =>
      exact ih hresult fun other hother => hpending other (List.mem_cons_of_mem _ hother)
  | @listing above _ _ _ _ hopens _ _ ih =>
      refine ih hresult fun other hother start hstart hne => ?_
      rcases List.mem_append.1 hother with hentry | hother
      · -- Above an entry there are the directory that lists it and those above that.
        obtain ⟨name, -, rfl⟩ := List.mem_map.1 hentry
        rcases List.prefix_concat_iff.1 hstart with hsame | habove
        · exact absurd hsame hne
        · by_cases hsame : start = above
          · rw [hsame]
            exact hopens
          · exact hpending _ List.mem_cons_self start habove hsame
      · exact hpending other (List.mem_cons_of_mem _ hother) start hstart hne
  | blocked hdirectory hblocked =>
      cases hresult
      exact ⟨hdirectory, hblocked, hpending _ List.mem_cons_self⟩

end Endings

end FileTree
end CodeSmells
