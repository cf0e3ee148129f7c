import CodeSmells.Proofs.Files.Missing

/-!
# Writing files

A path names the place of a file if its last segment is a name and the path leads to a
file that may be written, or to a free name in a directory that may be.  What is written
there is found there, and everything else stays as it was.

**Results.**

* `write_eq_ok_iff`: a file is written exactly at a target of the path.
* `Unchanged`, `unchanged_put`: what stays as it was.
* `alikeBut_put`, `resolve_put`: where paths lead afterwards.
* `alikeBut_put_put`: trees with two files in the same place.
* `AlikeBut.put`: another tree lacks the file that is written.
-/

namespace CodeSmells
namespace FileTree

variable {tree : FileTree} {path : Path} {location other directory : Location}
  {name : FileName} {bytes : ByteArray}

section Targets

/-- A path whose last segment is neither empty nor dots. -/
def NamesFile (path : Path) : Prop :=
  ∀ last, (segments path).getLast? = some last → last ≠ "" ∧ last ≠ "." ∧ last ≠ ".."

/--
A path names the place of a file: a file that may be written stands there, or the
name is free in a directory that may be written.
-/
inductive Target (tree : FileTree) (path : Path) : Location → Prop
  | existing {entry : Entry} :
      NamesFile path →
      tree.resolve path = .ok entry →
      tree.HasFile entry.location →
      tree.allows .write entry.location = true →
      Target tree path entry.location
  | new {directory : Location} {name : FileName} :
      NamesFile path →
      tree.locate path = .ok (.free directory name) →
      tree.allows .write directory = true →
      Target tree path (directory ++ [name])

theorem namesFile_iff :
    NamesFile path ↔ namesDirectory ((segments path).getLast?.getD "") = false := by
  rw [NamesFile]
  cases hlast : (segments path).getLast? with
  | none => exact absurd (List.getLast?_eq_none_iff.1 hlast) (segments_ne_nil path)
  | some last => simp [namesDirectory, and_assoc]

/-- What a path leads to is a file or a directory. -/
theorem hasFile_of_resolve {entry : Entry} (h : tree.resolve path = .ok entry)
    (hentry : ∀ location, entry ≠ .directory location) : tree.HasFile entry.location := by
  have hstands := resolve_stands h
  cases entry with
  | file location bytes => exact .inl ⟨bytes, hstands⟩
  | sealed location => exact .inr hstands
  | directory location => exact absurd rfl (hentry location)

/-- A file is written exactly at a target of the path, and nothing else is. -/
theorem write_eq_ok_iff {after : FileTree} :
    tree.write path bytes = .ok after ↔
      ∃ location, tree.Target path location ∧ after = tree.put location bytes := by
  constructor
  · intro h
    rw [write] at h
    split_ifs at h with hempty hlast
    rw [Bool.not_eq_true, ← namesFile_iff] at hlast
    split at h
    next => cases h
    next place hplace =>
      cases place with
      | free directory name =>
          rw [writeAt] at h
          split_ifs at h with hwrite
          cases h
          exact ⟨_, .new hlast hplace hwrite, rfl⟩
      | taken entry =>
          have hresolve := resolve_eq_ok_iff.2 hplace
          cases entry with
          | directory location => cases h
          | file location _ | sealed location =>
              rw [writeAt] at h
              split_ifs at h with hwrite
              cases h
              exact ⟨_, .existing hlast hresolve (hasFile_of_resolve hresolve nofun) hwrite, rfl⟩
  · rintro ⟨location, htarget, rfl⟩
    cases htarget with
    | @existing entry hlast hresolve hfile hwrite =>
        have hplace := resolve_eq_ok_iff.1 hresolve
        rw [write, if_neg (text_ne_empty_of_locate hplace), namesFile_iff.1 hlast,
          if_neg Bool.false_ne_true, hplace]
        cases entry with
        | file location _ | sealed location => exact if_pos hwrite
        | directory location =>
            have hplain : tree.isDirectory location = false := hfile.isDirectory
            rw [isDirectory_of_resolve hresolve] at hplain
            cases hplain
    | new hlast hplace hwrite =>
        rw [write, if_neg (text_ne_empty_of_locate hplace), namesFile_iff.1 hlast,
          if_neg Bool.false_ne_true, hplace]
        exact if_pos hwrite

/-- A target is the location of a name in a directory, and neither a directory nor a link. -/
theorem Target.exists_name (h : tree.Target path location) :
    ∃ directory name, location = directory ++ [name] ∧ tree.isDirectory directory = true ∧
      tree.IsPlain location := by
  cases h with
  | @existing entry _ _ hfile _ =>
      obtain ⟨standing, hstanding⟩ := hfile.exists_standing
      have hplain : tree.IsPlain entry.location := ⟨hfile.isDirectory, link?_of_standing? hstanding⟩
      rcases List.eq_nil_or_concat entry.location with hroot | ⟨directory, name, hsplit⟩
      · have hdirectory := hfile.isDirectory
        rw [hroot, isDirectory_nil] at hdirectory
        cases hdirectory
      · rw [List.concat_eq_append] at hsplit
        refine ⟨directory, name, hsplit, ?_, hplain⟩
        rw [hsplit] at hstanding
        exact isDirectory_of_standing? hstanding
  | @new directory name _ hplace _ =>
      have hfree : tree.IsFree directory name := locate_stands hplace
      refine ⟨directory, name, rfl, hfree.isDirectory, ?_, hfree.link⟩
      rw [← Bool.not_eq_true]
      intro hdirectory
      have hstanding := hfree.standing
      rw [standing?_of_isDirectory hdirectory] at hstanding
      cases hstanding

end Targets

section Afterwards

/-- A file in a directory makes no directories that were not there. -/
theorem isDirectory_put (hdirectory : tree.isDirectory directory = true)
    (hplain : tree.isDirectory (directory ++ [name]) = false) :
    (tree.put (directory ++ [name]) bytes).isDirectory other = tree.isDirectory other := by
  rw [Bool.eq_iff_iff]
  constructor
  · intro hafter
    rcases isDirectory_iff.1 hafter with hworking | ⟨e, he, hother, hkind⟩
    · exact isDirectory_iff.2 (.inl hworking)
    · rcases List.mem_cons.1 he with rfl | hold
      · rcases List.prefix_concat_iff.1 hother with rfl | hbelow
        · exact absurd (hkind.resolve_right Bool.false_ne_true) (Nat.lt_irrefl _)
        · exact isDirectory_of_under hdirectory hbelow
      · exact isDirectory_iff.2 (.inr ⟨e, (List.mem_filter.1 hold).1, hother, hkind⟩)
  · intro hbefore
    rcases isDirectory_iff.1 hbefore with hworking | ⟨e, he, hother, hkind⟩
    · exact isDirectory_iff.2 (.inl hworking)
    · by_cases hsame : e.1 = directory ++ [name]
      · -- The old node was above no directory, so only what is above it matters.
        rw [hsame] at hother
        rcases List.prefix_concat_iff.1 hother with rfl | hbelow
        · rw [hplain] at hbefore
          cases hbefore
        · refine isDirectory_iff.2 (.inr ⟨_, List.mem_cons_self, hother, .inl ?_⟩)
          have hshort := hbelow.length_le
          rw [List.length_append, List.length_singleton]
          omega
      · refine isDirectory_iff.2 (.inr ⟨e, List.mem_cons_of_mem _ ?_, hother, hkind⟩)
        exact List.mem_filter.2 ⟨he, by simpa using hsame⟩

/-- Everything is as it was, except what stands at one location. -/
structure Unchanged (location : Location) (before after : FileTree) : Prop where
  standing : ∀ other, other ≠ location → after.standing? other = before.standing? other
  link : ∀ other, other ≠ location → after.link? other = before.link? other
  bytes : ∀ other, other ≠ location → after.file? other = before.file? other
  denied : after.denied = before.denied
  workingDirectory : after.workingDirectory = before.workingDirectory

theorem unchanged_put (h : tree.Target path location) (bytes : ByteArray) :
    Unchanged location tree (tree.put location bytes) := by
  obtain ⟨directory, name, rfl, hdirectory, hplain⟩ := h.exists_name
  have hfile : ∀ other, other ≠ directory ++ [name] →
      (tree.put (directory ++ [name]) bytes).file? other = tree.file? other :=
    fun other hne => file?_put_of_ne tree bytes hne
  refine ⟨fun other hne => ?_, fun other hne => ?_, hfile, rfl, rfl⟩
  · rw [standing?, standing?, isDirectory_put hdirectory hplain.isDirectory, hfile other hne]
    rfl
  · rw [link?, link?, isDirectory_put hdirectory hplain.isDirectory, put,
      node?_set_of_ne tree _ hne]

/-- After something is written, the tree is alike up to the place of it. -/
theorem alikeBut_put (h : tree.Target path location) (bytes : ByteArray) :
    AlikeBut Eq location tree (tree.put location bytes) := by
  have hunchanged := unchanged_put h bytes
  obtain ⟨directory, name, rfl, hdirectory, hplain⟩ := h.exists_name
  refine ⟨hplain, ⟨?_, ?_⟩, fun other hne => ?_, fun other hne => (hunchanged.link other hne).symm,
    fun _ _ => rfl, rfl⟩
  · rw [isDirectory_put hdirectory hplain.isDirectory, hplain.isDirectory]
  · rw [link?, isDirectory_put hdirectory hplain.isDirectory, hplain.isDirectory,
      if_neg Bool.false_ne_true, put, node?_set_self]
    rfl
  · rw [hunchanged.standing other hne]
    cases tree.standing? other with
    | none => exact .none
    | some entry =>
        refine .some ?_
        cases entry with
        | file _ _ => exact .file rfl
        | sealed _ => exact .sealed
        | directory _ => exact .directory

/-- A file that is written is one that may be read, or one that may not. -/
def written (tree : FileTree) (location : Location) (bytes : ByteArray) : Entry :=
  if tree.allows .read location then .file location bytes else .sealed location

theorem standing?_put (h : tree.Target path location) (bytes : ByteArray) :
    (tree.put location bytes).standing? location = some (tree.written location bytes) := by
  rw [standing?, (alikeBut_put h bytes).plain'.isDirectory, if_neg Bool.false_ne_true,
    file?_put_self]
  rfl

/-- The path of a file that is written leads to the file. -/
theorem resolve_put (h : tree.Target path location) (bytes : ByteArray) :
    (tree.put location bytes).resolve path = .ok (tree.written location bytes) := by
  have halike := alikeBut_put h bytes
  have hstanding := standing?_put h bytes
  obtain ⟨place, hplace, hlocation⟩ : ∃ place, tree.locate path = .ok place ∧
      place.location = location := by
    cases h with
    | existing _ hresolve _ _ => exact ⟨_, resolve_eq_ok_iff.1 hresolve, rfl⟩
    | new _ hplace _ => exact ⟨_, hplace, rfl⟩
  obtain ⟨directory, name, rfl, -, -⟩ := h.exists_name
  have hafter := locate_to_location halike hplace hlocation
  rw [placeAt, hstanding] at hafter
  exact resolve_eq_ok_iff.2 hafter

/-- So a path is present after something is written to it. -/
theorem present_put (h : tree.Target path location) (bytes : ByteArray) :
    (tree.put location bytes).present path = true := by
  rw [present, resolve_put h bytes]

/-- After files with related bytes are written in the same place, the trees are alike. -/
theorem alikeBut_put_put {R : ByteArray → ByteArray → Prop} {bytes' : ByteArray}
    {place : Location} (htarget : tree.Target path location) (hbytes : R bytes bytes')
    (hfiles : ∀ other old, tree.file? other = some old → R old old)
    (hplain : (tree.put location bytes).IsPlain place)
    (hplain' : (tree.put location bytes').IsPlain place) :
    AlikeBut R place (tree.put location bytes) (tree.put location bytes') := by
  have hunchanged := unchanged_put htarget bytes
  have hunchanged' := unchanged_put htarget bytes'
  refine ⟨hplain, hplain', fun other _ => ?_, fun other _ => ?_, fun _ _ => rfl, rfl⟩
  · by_cases hsame : other = location
    · rw [hsame, standing?_put htarget, standing?_put htarget, written, written]
      split_ifs
      · exact .some (.file hbytes)
      · exact .some .sealed
    · rw [hunchanged.standing other hsame, hunchanged'.standing other hsame]
      rcases standing?_cases tree other with hnone | hdirectory | hsealed | ⟨old, hfile⟩
      · rw [hnone]
        exact .none
      · rw [hdirectory]
        exact .some .directory
      · rw [hsealed]
        exact .some .sealed
      · rw [hfile]
        exact .some (.file (hfiles other old (file?_of_standing? hfile)))
  · by_cases hsame : other = location
    · rw [hsame, (alikeBut_put htarget bytes).plain'.link,
        (alikeBut_put htarget bytes').plain'.link]
    · rw [hunchanged.link other hsame, hunchanged'.link other hsame]

/-- A tree that is alike but for the place of the file lacks what is written. -/
theorem AlikeBut.put {R : ByteArray → ByteArray → Prop} {other : FileTree}
    (h : AlikeBut R location tree other) (hgone : other.standing? location = none)
    (htarget : tree.Target path location) (bytes : ByteArray) :
    AlikeWithout R location (tree.put location bytes) other where
  plain := (alikeBut_put htarget bytes).plain'
  plain' := h.plain'
  standing elsewhere hne := by
    rw [(unchanged_put htarget bytes).standing elsewhere hne]
    exact h.standing elsewhere hne
  link elsewhere hne :=
    ((unchanged_put htarget bytes).link elsewhere hne).trans (h.link elsewhere hne)
  allows := h.allows
  workingDirectory := h.workingDirectory
  there := by
    rw [HasFile, standing?_put htarget, written]
    split_ifs
    · exact .inl ⟨_, rfl⟩
    · exact .inr rfl
  gone := hgone

end Afterwards

end FileTree
end CodeSmells
