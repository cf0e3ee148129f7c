import CodeSmells.Proofs.Files

/-!
# Walking through file trees

`Leads` says by rules where a way leads: it goes from entry to entry, is replaced by
the target of a link, and ends at an entry or at a name that is free.  It is what
`walk` computes, so that facts on walks are proved by induction on the rules.

**Results.**

* `leads_iff`: the rules and the computation agree.
* `follow_cases`: what a segment does, whatever the files are.
* `Leads.stands`, `locate_stands`, `resolve_stands`: a way leads to what stands in the tree.
* `Leads.append`: a way to an entry may go on from there.
* `walk_names`: names lead through directories to what they spell out.
-/

namespace CodeSmells
namespace FileTree

variable {tree : FileTree} {path : Path} {location other directory : Location}
  {name : FileName} {links : Nat} {here next : Entry} {segment : String} {way rest : List String}
  {place : Place} {result : Except FileError Place} {error : FileError}

section Rules

/-- Where a way leads from an entry, over so many links at most. -/
inductive Leads (tree : FileTree) :
    Nat → Entry → List String → Except FileError Place → Prop
  | arrived {links : Nat} {here : Entry} : Leads tree links here [] (.ok (.taken here))
  | stopped {links : Nat} {here : Entry} {segment : String} {rest : List String}
      {error : FileError} :
      tree.follow here segment = .error error →
      Leads tree links here (segment :: rest) (.error error)
  | further {links : Nat} {here next : Entry} {segment : String} {rest : List String}
      {result : Except FileError Place} :
      tree.follow here segment = .ok (.reached next) →
      Leads tree links next rest result →
      Leads tree links here (segment :: rest) result
  | free {links : Nat} {here : Entry} {segment : String} {directory : Location}
      {name : FileName} :
      tree.follow here segment = .ok (.free directory name) →
      Leads tree links here [segment] (.ok (.free directory name))
  | missing {links : Nat} {here : Entry} {segment next : String} {rest : List String}
      {directory : Location} {name : FileName} :
      tree.follow here segment = .ok (.free directory name) →
      Leads tree links here (segment :: next :: rest) (.error .notFound)
  | linked {links : Nat} {here : Entry} {segment : String} {rest : List String}
      {directory : Location} {target : Path} {result : Except FileError Place} :
      tree.follow here segment = .ok (.link directory target) →
      target.text ≠ "" →
      Leads tree links (.directory (start target directory)) (segments target ++ rest) result →
      Leads tree (links + 1) here (segment :: rest) result
  | untargeted {links : Nat} {here : Entry} {segment : String} {rest : List String}
      {directory : Location} {target : Path} :
      tree.follow here segment = .ok (.link directory target) →
      target.text = "" →
      Leads tree (links + 1) here (segment :: rest) (.error .notFound)
  | exhausted {here : Entry} {segment : String} {rest : List String}
      {directory : Location} {target : Path} :
      tree.follow here segment = .ok (.link directory target) →
      Leads tree 0 here (segment :: rest) (.error .tooManyLinks)

theorem walk_nil : tree.walk links here [] = .ok (.taken here) :=
  rfl

theorem walk_of_error (h : tree.follow here segment = .error error) :
    tree.walk links here (segment :: rest) = .error error := by
  rw [walk, goWith, h]

theorem walk_of_reached (h : tree.follow here segment = .ok (.reached next)) :
    tree.walk links here (segment :: rest) = tree.walk links next rest := by
  rw [walk, goWith, h]
  rfl

theorem walk_of_free (h : tree.follow here segment = .ok (.free directory name)) :
    tree.walk links here (segment :: rest) =
      if rest.isEmpty then .ok (.free directory name) else .error .notFound := by
  rw [walk, goWith, h]

theorem walk_of_link {target : Path} (h : tree.follow here segment = .ok (.link directory target))
    (htarget : target.text ≠ "") :
    tree.walk (links + 1) here (segment :: rest) =
      tree.walk links (.directory (start target directory)) (segments target ++ rest) := by
  rw [walk, goWith, h]
  simp only [jump, if_neg htarget]
  rfl

theorem walk_of_link_untargeted {target : Path}
    (h : tree.follow here segment = .ok (.link directory target)) (htarget : target.text = "") :
    tree.walk (links + 1) here (segment :: rest) = .error .notFound := by
  rw [walk, goWith, h]
  simp only [jump, if_pos htarget]

theorem walk_of_link_exhausted {target : Path}
    (h : tree.follow here segment = .ok (.link directory target)) :
    tree.walk 0 here (segment :: rest) = .error .tooManyLinks := by
  rw [walk, goWith, h]
  rfl

/-- A walk follows the rules: the induction is on the links that are left, then on the way. -/
theorem leads_walk (tree : FileTree) (links : Nat) (here : Entry) (way : List String) :
    tree.Leads links here way (tree.walk links here way) := by
  induction links using Nat.strongRecOn generalizing here way with
  | ind links ihlinks =>
    induction way generalizing here with
    | nil => exact .arrived
    | cons segment rest ih =>
        cases hfollow : tree.follow here segment with
        | error error =>
            rw [walk_of_error hfollow]
            exact .stopped hfollow
        | ok step =>
            cases step with
            | reached next =>
                rw [walk_of_reached hfollow]
                exact .further hfollow (ih next)
            | free directory name =>
                rw [walk_of_free hfollow]
                cases rest with
                | nil => exact .free hfollow
                | cons next rest => exact .missing hfollow
            | link directory target =>
                cases links with
                | zero =>
                    rw [walk_of_link_exhausted hfollow]
                    exact .exhausted hfollow
                | succ links =>
                    by_cases htarget : target.text = ""
                    · rw [walk_of_link_untargeted hfollow htarget]
                      exact .untargeted hfollow htarget
                    · rw [walk_of_link hfollow htarget]
                      exact .linked hfollow htarget (ihlinks links (Nat.lt_succ_self links) _ _)

/-- The rules lead where a walk does, and nowhere else. -/
theorem leads_iff : tree.Leads links here way result ↔ tree.walk links here way = result := by
  constructor
  · intro h
    induction h with
    | arrived => exact walk_nil
    | stopped hfollow => exact walk_of_error hfollow
    | further hfollow _ ih => exact (walk_of_reached hfollow).trans ih
    | free hfollow => exact walk_of_free hfollow
    | missing hfollow => exact walk_of_free hfollow
    | linked hfollow htarget _ ih => exact (walk_of_link hfollow htarget).trans ih
    | untargeted hfollow htarget => exact walk_of_link_untargeted hfollow htarget
    | exhausted hfollow => exact walk_of_link_exhausted hfollow
  · rintro rfl
    exact leads_walk tree links here way

end Rules

section Directories

theorem isDirectory_iff :
    tree.isDirectory location = true ↔ location <+: tree.workingDirectory ∨
      ∃ e ∈ tree.nodes, location <+: e.1 ∧
        (location.length < e.1.length ∨ e.2.isDirectory = true) := by
  simp [isDirectory]

theorem isDirectory_nil : tree.isDirectory [] = true :=
  isDirectory_iff.2 (.inl List.nil_prefix)

theorem isDirectory_workingDirectory : tree.isDirectory tree.workingDirectory = true :=
  isDirectory_iff.2 (.inl List.prefix_rfl)

/-- Whatever a directory is below is a directory. -/
theorem isDirectory_of_under (h : tree.isDirectory location = true) (hunder : other <+: location) :
    tree.isDirectory other = true := by
  rw [isDirectory_iff] at h ⊢
  rcases h with hworking | ⟨e, he, hlocation, hdirectory⟩
  · exact .inl (hunder.trans hworking)
  · refine .inr ⟨e, he, hunder.trans hlocation, ?_⟩
    exact hdirectory.imp_left (Nat.lt_of_le_of_lt hunder.length_le)

theorem node_mem_of_node? {node : Node} (h : tree.node? location = some node) :
    (location, node) ∈ tree.nodes := by
  obtain ⟨before, after, hnodes, -⟩ := List.lookup_eq_some_iff.1 h
  rw [hnodes]
  exact List.mem_append_right _ List.mem_cons_self

/-- Whatever something is held below is a directory. -/
theorem isDirectory_of_node? {node : Node} {below : Location}
    (h : tree.node? (location ++ name :: below) = some node) :
    tree.isDirectory location = true := by
  refine isDirectory_iff.2 (.inr ⟨_, node_mem_of_node? h, List.prefix_append _ _, .inl ?_⟩)
  rw [List.length_append, List.length_cons]
  omega

theorem node?_of_standing? {entry : Entry} (h : tree.standing? location = some entry) :
    tree.isDirectory location = true ∨ ∃ node, tree.node? location = some node := by
  by_cases hdirectory : tree.isDirectory location = true
  · exact .inl hdirectory
  · rw [standing?, if_neg hdirectory] at h
    obtain ⟨bytes, hbytes, -⟩ := Option.map_eq_some_iff.1 h
    obtain ⟨node, hnode, -⟩ := Option.bind_eq_some_iff.1 hbytes
    exact .inr ⟨node, hnode⟩

/-- Whatever something stands below is a directory. -/
theorem isDirectory_of_standing? {entry : Entry} {below : Location}
    (h : tree.standing? (location ++ name :: below) = some entry) :
    tree.isDirectory location = true := by
  rcases node?_of_standing? h with hdirectory | ⟨node, hnode⟩
  · exact isDirectory_of_under hdirectory (List.prefix_append _ _)
  · exact isDirectory_of_node? hnode

theorem isDirectory_start (target : Path) (h : tree.isDirectory directory = true) :
    tree.isDirectory (start target directory) = true := by
  rw [start]
  split_ifs
  · exact isDirectory_nil
  · exact h

end Directories

section Steps

/-- Whether a segment may be followed from a directory: the empty one always may. -/
def lets (tree : FileTree) (here : Location) (segment : String) : Prop :=
  segment = "" ∨ tree.allows .pass here = true

/-- A segment leads upwards or nowhere, whatever the files are, or where a name leads. -/
theorem follow_cases (here : Location) (segment : String) :
    (∃ above, above <+: here ∧ ∀ tree : FileTree, tree.lets here segment →
      tree.follow (.directory here) segment = .ok (.reached (.directory above))) ∨
    (∃ error, ∀ tree : FileTree, tree.lets here segment →
      tree.follow (.directory here) segment = .error error) ∨
    ∃ name, name.text = segment ∧ ∀ tree : FileTree, tree.lets here segment →
      tree.follow (.directory here) segment = .ok (tree.lookup here name) := by
  by_cases hempty : segment = ""
  · exact .inl ⟨here, List.prefix_rfl, fun _ _ => by rw [follow, if_pos hempty]⟩
  have hpass : ∀ tree : FileTree, tree.lets here segment → ¬ tree.allows .pass here = false :=
    fun tree hlets => by simp [hlets.resolve_left hempty]
  by_cases hstay : segment = "."
  · refine .inl ⟨here, List.prefix_rfl, fun tree hlets => ?_⟩
    rw [follow, if_neg hempty, if_neg (hpass tree hlets), if_pos hstay]
  by_cases hup : segment = ".."
  · refine .inl ⟨here.dropLast, List.dropLast_prefix here, fun tree hlets => ?_⟩
    rw [follow, if_neg hempty, if_neg (hpass tree hlets), if_neg hstay, if_pos hup]
  cases hname : FileName.ofText? segment with
  | none =>
      refine .inr (.inl ⟨.nameTooLong, fun tree hlets => ?_⟩)
      simp only [follow, if_neg hempty, if_neg (hpass tree hlets), if_neg hstay, if_neg hup, hname]
  | some name =>
      obtain rfl : name.text = segment := FileName.ofText?_eq_some_iff.1 hname
      exact .inr (.inr ⟨name, rfl, fun tree hlets => follow_name (hlets.resolve_left hempty) name⟩)

/-- A segment that may not be followed leads nowhere. -/
theorem follow_of_not_lets {here : Location} (h : ¬ tree.lets here segment) :
    tree.follow (.directory here) segment = .error .denied := by
  rw [lets, not_or, Bool.not_eq_true] at h
  exact follow_of_denied h.2 h.1

/-- Only from a directory does a segment lead on. -/
theorem directory_of_follow {step : Step} (h : tree.follow here segment = .ok step) :
    ∃ start, here = .directory start ∧ tree.lets start segment := by
  cases here with
  | file _ _ | sealed _ => cases h
  | directory start =>
      refine ⟨start, rfl, ?_⟩
      by_contra hlets
      rw [follow_of_not_lets hlets] at h
      cases h

end Steps

section Arrivals

/-- Whether an entry stands in a tree. -/
def Entry.Stands (tree : FileTree) (entry : Entry) : Prop :=
  tree.standing? entry.location = some entry

/-- Whether a name is free in a directory of a tree. -/
structure IsFree (tree : FileTree) (directory : Location) (name : FileName) : Prop where
  isDirectory : tree.isDirectory directory = true
  standing : tree.standing? (directory ++ [name]) = none
  link : tree.link? (directory ++ [name]) = none

/-- Whether a step from a directory leads to what there is in a tree. -/
def Step.Stands (tree : FileTree) : Step → Prop
  | .reached entry => entry.Stands tree
  | .link directory _ => tree.isDirectory directory = true
  | .free directory name => tree.IsFree directory name

/-- Whether a place is one of a tree: what is taken stands there. -/
def Place.Stands (tree : FileTree) : Place → Prop
  | .taken entry => entry.Stands tree
  | .free directory name => tree.IsFree directory name

theorem stands_directory_iff :
    (Entry.directory directory).Stands tree ↔ tree.isDirectory directory = true := by
  rw [Entry.Stands, Entry.location, standing?_eq_directory_iff, and_iff_right rfl]

/-- What is found at a location has the location, and stands there. -/
theorem stands_of_standing? {entry : Entry} (h : tree.standing? location = some entry) :
    entry.location = location ∧ entry.Stands tree := by
  have hlocation : entry.location = location := by
    rcases standing?_cases tree location with hnone | hdirectory | hsealed | ⟨bytes, hfile⟩
    · rw [h] at hnone
      cases hnone
    · rw [h] at hdirectory
      cases hdirectory
      rfl
    · rw [h] at hsealed
      cases hsealed
      rfl
    · rw [h] at hfile
      cases hfile
      rfl
  refine ⟨hlocation, ?_⟩
  rw [Entry.Stands, hlocation]
  exact h

theorem lookup_stands {start : Location} (h : tree.isDirectory start = true) (name : FileName) :
    (tree.lookup start name).Stands tree := by
  rcases lookup_cases tree start name with ⟨entry, hentry, hlookup⟩ | ⟨target, -, hlookup⟩ |
    ⟨hstanding, hlink, hlookup⟩
  · rw [hlookup]
    exact (stands_of_standing? hentry).2
  · rw [hlookup]
    exact h
  · rw [hlookup]
    exact ⟨h, hstanding, hlink⟩

/-- Steps from directories of a tree lead to what there is in the tree. -/
theorem follow_stands {step : Step} (hhere : here.Stands tree)
    (h : tree.follow here segment = .ok step) : step.Stands tree := by
  obtain ⟨start, rfl, hlets⟩ := directory_of_follow h
  rw [stands_directory_iff] at hhere
  rcases follow_cases start segment with ⟨above, habove, hfollow⟩ | ⟨error, hfollow⟩ |
    ⟨name, -, hfollow⟩
  · rw [hfollow tree hlets] at h
    cases h
    exact stands_directory_iff.2 (isDirectory_of_under hhere habove)
  · rw [hfollow tree hlets] at h
    cases h
  · rw [hfollow tree hlets] at h
    cases h
    exact lookup_stands hhere name

/-- A way from an entry of the tree leads to a place of the tree. -/
theorem Leads.stands (h : tree.Leads links here way result) (hhere : here.Stands tree)
    (hresult : result = .ok place) : place.Stands tree := by
  induction h with
  | arrived =>
      cases hresult
      exact hhere
  | further hfollow _ ih => exact ih (follow_stands hhere hfollow) hresult
  | free hfollow =>
      cases hresult
      exact follow_stands hhere hfollow
  | linked hfollow _ _ ih =>
      exact ih (stands_directory_iff.2 (isDirectory_start _ (follow_stands hhere hfollow))) hresult
  | stopped _ | missing _ | untargeted _ _ | exhausted _ => cases hresult

/-- The way of a path. -/
theorem leads_of_locate (h : tree.locate path = .ok place) :
    tree.Leads maxLinks (.directory (start path tree.workingDirectory)) (segments path)
      (.ok place) := by
  rw [locate, if_neg (text_ne_empty_of_locate h)] at h
  exact leads_iff.2 h

theorem locate_stands (h : tree.locate path = .ok place) : place.Stands tree :=
  (leads_of_locate h).stands
    (stands_directory_iff.2 (isDirectory_start path isDirectory_workingDirectory)) rfl

theorem resolve_stands {entry : Entry} (h : tree.resolve path = .ok entry) : entry.Stands tree :=
  locate_stands (resolve_eq_ok_iff.1 h)

theorem isDirectory_of_resolve (h : tree.resolve path = .ok (.directory directory)) :
    tree.isDirectory directory = true :=
  stands_directory_iff.1 (resolve_stands h)

end Arrivals

section Continuations

/-- A way that leads to an entry may go on from there, over the links that are left. -/
theorem Leads.append (h : tree.Leads links here way result) (hresult : result = .ok (.taken next)) :
    ∃ left, ∀ rest, tree.walk links here (way ++ rest) = tree.walk left next rest := by
  induction h with
  | arrived =>
      cases hresult
      exact ⟨_, fun _ => rfl⟩
  | further hfollow _ ih =>
      obtain ⟨left, hleft⟩ := ih hresult
      exact ⟨left, fun rest => (walk_of_reached hfollow).trans (hleft rest)⟩
  | linked hfollow htarget _ ih =>
      obtain ⟨left, hleft⟩ := ih hresult
      refine ⟨left, fun rest => (walk_of_link hfollow htarget).trans ?_⟩
      rw [← hleft rest, List.append_assoc]
      rfl
  | free _ | stopped _ | missing _ | untargeted _ _ | exhausted _ => cases hresult

/--
Names lead to the entry that they spell out if the directories before the last one
may be passed, unless the last one may not.
-/
theorem walk_names {entry : Entry} {above : Location}
    (hpass : ∀ start, start <+: above → start ≠ above →
      tree.allows .pass (directory ++ start) = true)
    (h : tree.standing? (directory ++ (above ++ [name])) = some entry) (links : Nat) :
    tree.walk links (.directory directory) ((above ++ [name]).map FileName.text) =
      if tree.allows .pass (directory ++ above) then .ok (.taken entry) else .error .denied := by
  induction above generalizing directory with
  | nil =>
      rw [List.append_nil]
      cases hlast : tree.allows .pass directory with
      | true =>
          have hfollow := follow_name hlast name
          rw [lookup_of_standing? h] at hfollow
          exact walk_of_reached hfollow
      | false => exact walk_of_error (follow_of_denied hlast name.text_ne_empty)
  | cons next above ih =>
      have hsplit : ∀ below, directory ++ next :: below = directory ++ [next] ++ below := by simp
      have hhere : tree.allows .pass directory = true := by
        have hnil := hpass [] List.nil_prefix (by simp)
        rwa [List.append_nil] at hnil
      rw [List.cons_append, hsplit] at h
      have hdirectory : tree.isDirectory (directory ++ [next]) = true := by
        cases habove : above ++ [name] with
        | nil => exact absurd habove (by simp)
        | cons first rest =>
            rw [habove] at h
            exact isDirectory_of_standing? h
      have hfollow := follow_name hhere next
      rw [lookup_of_standing? (standing?_of_isDirectory hdirectory)] at hfollow
      rw [List.cons_append, List.map_cons, walk_of_reached hfollow, hsplit above]
      refine ih (fun start hstart hne => ?_) h
      rw [← hsplit]
      exact hpass (next :: start) (List.cons_prefix_cons.2 ⟨rfl, hstart⟩) (by simpa using hne)

end Continuations

end FileTree
end CodeSmells
