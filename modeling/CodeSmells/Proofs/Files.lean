import CodeSmells.Files.Discovery
import CodeSmells.Proofs.WarningOrder

/-!
# Paths and the files that they lead to

**Results.**

* `isValid_iff`: what a name is, and hence what it is not.
* `standing?_cases`, `lookup_cases`: what stands at a location, and where a name leads.
* `resolve_name`, `resolve_of_file?`: a name leads to what stands there.
* `readText_eq_error_iff`: why a file is not read.
* `discover_of_resolve`, `pairwise_discover`: the dumps that a path names.
-/

namespace CodeSmells

variable {tree : FileTree} {path : Path}

namespace Path

theorem segments_ne_nil (chars : List Char) : segments chars ≠ [] := by
  fun_cases segments chars <;> simp_all

/-- A text without separators is one segment. -/
theorem segments_of_notMem {chars : List Char} (h : '/' ∉ chars) :
    segments chars = [chars] := by
  induction chars with
  | nil => rfl
  | cons c chars ih =>
      rw [List.mem_cons, not_or] at h
      have hchars := ih h.2
      rw [segments]
      · rw [hchars]
      · rintro rfl
        exact h.1 rfl

end Path

namespace FileName

theorem isValid_iff {text : String} :
    isValid text = true ↔ text ≠ "" ∧ text ≠ "." ∧ text ≠ ".." ∧ '/' ∉ text.toList ∧
      text.utf8ByteSize ≤ maxBytes := by
  simp [isValid, and_assoc]

variable (name : FileName)

theorem text_ne_empty : name.text ≠ "" :=
  (isValid_iff.1 name.valid).1

theorem text_ne_here : name.text ≠ "." :=
  (isValid_iff.1 name.valid).2.1

theorem text_ne_up : name.text ≠ ".." :=
  (isValid_iff.1 name.valid).2.2.1

theorem separator_notMem : '/' ∉ name.text.toList :=
  (isValid_iff.1 name.valid).2.2.2.1

theorem ofText?_eq_some_iff {text : String} {name : FileName} :
    ofText? text = some name ↔ name.text = text := by
  constructor
  · intro h
    rw [ofText?] at h
    split at h
    next => rw [← Option.some.inj h]
    next => cases h
  · rintro rfl
    exact ofText?_text name

end FileName

namespace FileTree

section Segments

theorem segments_ne_nil (path : Path) : segments path ≠ [] := by
  rw [segments, ne_eq, List.map_eq_nil_iff]
  exact Path.segments_ne_nil path.text.toList

theorem segments_name (name : FileName) : segments ⟨name.text⟩ = [name.text] := by
  rw [segments, Path.segments_of_notMem name.separator_notMem, List.map_singleton,
    String.ofList_toList]

/-- A path that is a name starts in the working directory. -/
theorem start_name (name : FileName) (here : Location) : start ⟨name.text⟩ here = here := by
  rw [start, segments_name, if_neg]
  exact fun hroot => name.text_ne_empty (Option.some.inj hroot)

end Segments

section Standing

variable {location directory : Location} {bytes : ByteArray}

theorem standing?_of_isDirectory (h : tree.isDirectory location = true) :
    tree.standing? location = some (.directory location) := by
  rw [standing?, if_pos h]

theorem link?_of_isDirectory (h : tree.isDirectory location = true) :
    tree.link? location = none := by
  rw [link?, if_pos h]

/-- What stands at a location has the location. -/
theorem standing?_cases (tree : FileTree) (location : Location) :
    tree.standing? location = none ∨ tree.standing? location = some (.directory location) ∨
      tree.standing? location = some (.sealed location) ∨
      ∃ bytes, tree.standing? location = some (.file location bytes) := by
  rw [standing?]
  by_cases hdirectory : tree.isDirectory location = true
  · exact .inr (.inl (if_pos hdirectory))
  · rw [if_neg hdirectory]
    cases tree.file? location with
    | none => exact .inl rfl
    | some bytes => cases tree.allows .read location <;> simp

theorem standing?_eq_directory_iff :
    tree.standing? location = some (.directory directory) ↔
      directory = location ∧ tree.isDirectory location = true := by
  constructor
  · intro h
    by_cases hdirectory : tree.isDirectory location = true
    · rw [standing?_of_isDirectory hdirectory] at h
      cases h
      exact ⟨rfl, hdirectory⟩
    · rw [standing?, if_neg hdirectory] at h
      obtain ⟨bytes, -, hentry⟩ := Option.map_eq_some_iff.1 h
      split_ifs at hentry
  · rintro ⟨rfl, h⟩
    exact standing?_of_isDirectory h

/-- A file that may be read stands where its bytes are. -/
theorem standing?_of_file? (h : tree.file? location = some bytes)
    (hfile : tree.isDirectory location = false) (hread : tree.allows .read location = true) :
    tree.standing? location = some (.file location bytes) := by
  rw [standing?, if_neg (by rw [hfile]; exact Bool.false_ne_true), h]
  simp [hread]

theorem file?_of_standing? (h : tree.standing? location = some (.file location bytes)) :
    tree.file? location = some bytes := by
  by_cases hdirectory : tree.isDirectory location = true
  · rw [standing?_of_isDirectory hdirectory] at h
    cases h
  · rw [standing?, if_neg hdirectory] at h
    obtain ⟨old, hold, hentry⟩ := Option.map_eq_some_iff.1 h
    split_ifs at hentry
    cases hentry
    exact hold

/-- No link stands where a file or a directory does. -/
theorem link?_of_standing? {entry : Entry} (h : tree.standing? location = some entry) :
    tree.link? location = none := by
  by_cases hdirectory : tree.isDirectory location = true
  · exact link?_of_isDirectory hdirectory
  · rw [standing?, if_neg hdirectory] at h
    obtain ⟨bytes, hbytes, -⟩ := Option.map_eq_some_iff.1 h
    rw [file?] at hbytes
    rw [link?, if_neg hdirectory]
    cases hnode : tree.node? location with
    | none => rfl
    | some node =>
        rw [hnode] at hbytes
        cases node with
        | file _ => rfl
        | directory | link _ => cases hbytes

end Standing

section Steps

variable {here : Location} {name : FileName}

theorem lookup_of_standing? {entry : Entry} (h : tree.standing? (here ++ [name]) = some entry) :
    tree.lookup here name = .reached entry := by
  rw [lookup, link?_of_standing? h, h]

theorem lookup_of_link? {target : Path} (h : tree.link? (here ++ [name]) = some target) :
    tree.lookup here name = .link here target := by
  rw [lookup, h]

theorem lookup_of_none (hstanding : tree.standing? (here ++ [name]) = none)
    (hlink : tree.link? (here ++ [name]) = none) : tree.lookup here name = .free here name := by
  rw [lookup, hlink, hstanding]

/-- A name leads to what stands there, to a link, or nowhere yet. -/
theorem lookup_cases (tree : FileTree) (here : Location) (name : FileName) :
    (∃ entry, tree.standing? (here ++ [name]) = some entry ∧
      tree.lookup here name = .reached entry) ∨
    (∃ target, tree.link? (here ++ [name]) = some target ∧
      tree.lookup here name = .link here target) ∨
    (tree.standing? (here ++ [name]) = none ∧ tree.link? (here ++ [name]) = none ∧
      tree.lookup here name = .free here name) := by
  cases hstanding : tree.standing? (here ++ [name]) with
  | some entry => exact .inl ⟨entry, rfl, lookup_of_standing? hstanding⟩
  | none =>
      cases hlink : tree.link? (here ++ [name]) with
      | some target => exact .inr (.inl ⟨target, rfl, lookup_of_link? hlink⟩)
      | none => exact .inr (.inr ⟨rfl, rfl, lookup_of_none hstanding hlink⟩)

/-- From a directory that may be passed, a name leads where it is looked up. -/
theorem follow_name (hpass : tree.allows .pass here = true) (name : FileName) :
    tree.follow (.directory here) name.text = .ok (tree.lookup here name) := by
  simp only [follow, name.text_ne_empty, name.text_ne_here, name.text_ne_up, hpass, if_false,
    Bool.true_eq_false, FileName.ofText?_text]

/-- From another directory it leads nowhere. -/
theorem follow_of_denied {segment : String} (hpass : tree.allows .pass here = false)
    (hsegment : segment ≠ "") : tree.follow (.directory here) segment = .error .denied := by
  simp only [follow, if_neg hsegment, if_pos hpass]

/-- The path that is a name leads to what stands there in the working directory. -/
theorem resolve_name {entry : Entry} (hpass : tree.allows .pass tree.workingDirectory = true)
    (h : tree.standing? (tree.workingDirectory ++ [name]) = some entry) :
    tree.resolve ⟨name.text⟩ = .ok entry := by
  have hfollow := follow_name hpass name
  rw [lookup_of_standing? h] at hfollow
  rw [resolve, locate, if_neg name.text_ne_empty, start_name, segments_name, walk, goWith, hfollow]
  rfl

/-- The name of a file in the working directory leads to the file. -/
theorem resolve_of_file? (name : FileName) {bytes : ByteArray}
    (h : tree.file? (tree.workingDirectory ++ [name]) = some bytes)
    (hfile : tree.isDirectory (tree.workingDirectory ++ [name]) = false)
    (hread : tree.allows .read (tree.workingDirectory ++ [name]) = true)
    (hpass : tree.allows .pass tree.workingDirectory = true) :
    tree.resolve ⟨name.text⟩ = .ok (.file (tree.workingDirectory ++ [name]) bytes) :=
  resolve_name hpass (standing?_of_file? h hfile hread)

end Steps

section Results

/-- The path that leads somewhere is not empty. -/
theorem text_ne_empty_of_locate {place : Place} (h : tree.locate path = .ok place) :
    path.text ≠ "" := by
  intro hempty
  rw [locate, if_pos hempty] at h
  cases h

theorem resolve_eq_ok_iff {entry : Entry} :
    tree.resolve path = .ok entry ↔ tree.locate path = .ok (.taken entry) := by
  rw [resolve]
  cases tree.locate path with
  | error error => simp
  | ok place => cases place <;> simp

/--
A file is not read if nothing is there, if it may not be read, if it is a
directory, or if its bytes are no text.
-/
theorem readText_eq_error_iff {error : FileError} :
    tree.readText path = .error error ↔
      tree.resolve path = .error error ∨
      (∃ location, tree.resolve path = .ok (.sealed location) ∧ error = .denied) ∨
      (∃ location, tree.resolve path = .ok (.directory location) ∧
        error = if tree.allows .read location then .isDirectory else .denied) ∨
      ∃ location bytes, tree.resolve path = .ok (.file location bytes) ∧
        ¬ bytes.IsValidUTF8 ∧ error = .notText := by
  rw [readText]
  cases tree.resolve path with
  | error e => simp
  | ok entry =>
      cases entry with
      | sealed location => simp [@eq_comm _ error]
      | directory location => simp [@eq_comm _ error]
      | file location bytes =>
          by_cases hvalid : bytes.IsValidUTF8
          · simp [String.fromUTF8?, hvalid]
          · simp [String.fromUTF8?, hvalid, @eq_comm _ error]

/-- A path that leads to a file names one dump. -/
theorem discover_of_resolve {location : Location} {bytes : ByteArray}
    (h : tree.resolve path = .ok (.file location bytes)) : tree.discover path = .ok [path] := by
  rw [discover, h]

/-- So does a path that leads to a file that may not be read. -/
theorem discover_of_sealed {location : Location}
    (h : tree.resolve path = .ok (.sealed location)) : tree.discover path = .ok [path] := by
  rw [discover, h]

/-- The dumps that a path names are in the order of their paths. -/
theorem pairwise_discover {paths : List Path} (h : tree.discover path = .ok paths) :
    paths.Pairwise fun a b => (Path.order a b).isLE = true := by
  have hsingle : [path].Pairwise fun a b => (Path.order a b).isLE = true :=
    List.pairwise_singleton _ _
  rw [discover] at h
  split at h
  next => cases h
  next =>
    cases h
    exact hsingle
  next =>
    cases h
    exact hsingle
  next =>
    split at h
    next => cases h
    next =>
      cases h
      exact pairwise_mergeSort_isLE Path.order _

end Results

end FileTree

end CodeSmells
