import CodeSmells.Proofs.Files.Dumps
import CodeSmells.Proofs.Stages
import CodeSmells.Proofs.WarningPrecedence
import Mathlib.Data.List.TakeWhile

/-!
# Dumps that are found

A directory names the files below it whose names end in the extension of dumps,
with something before the dot.  They are found in the order of their paths, name by
name, and an analysis of the directory reports on their contexts in that order.

**Results.**

* `extension?_eq_some_iff`: what the extension of a name is.
* `mem_discover_iff`, `nodup_discover`, `pairwise_before_discover`: the paths that are found.
* `course_result_eq_ok_iff`: the report is on the contexts of all dumps that are found.
* `discovery_is_exact`: all of these.
-/

namespace CodeSmells

section Extensions

namespace Path

variable {name extension : String}

/-- What follows a dot, without dots itself, is the extension. -/
theorem extension?_append {stem : String} (hstem : stem ≠ "") (hdot : '.' ∉ extension.toList) :
    extension? (stem ++ "." ++ extension) = some extension := by
  have hchars : (stem ++ "." ++ extension).toList.reverse =
      extension.toList.reverse ++ '.' :: stem.toList.reverse := by
    simp
  have htail : (stem ++ "." ++ extension).toList.reverse.takeWhile (· != '.') =
      extension.toList.reverse := by
    rw [hchars, List.takeWhile_append_of_pos]
    · simp
    · intro c hc
      rw [List.mem_reverse] at hc
      rw [bne_iff_ne]
      rintro rfl
      exact hdot hc
  have hpos : 0 < stem.length := by
    rw [← String.length_toList, List.length_pos_iff, ne_eq, String.toList_eq_nil_iff]
    exact hstem
  rw [extension?, htail, if_pos, List.reverse_reverse, String.ofList_toList]
  rw [List.length_reverse, String.length_toList, String.length_append, String.length_append]
  change extension.length + 1 < stem.length + 1 + extension.length
  omega

/-- A name with an extension has a dot before it, and something before the dot. -/
theorem exists_stem_of_extension? (h : extension? name = some extension) :
    '.' ∉ extension.toList ∧ ∃ stem, stem ≠ "" ∧ name = stem ++ "." ++ extension := by
  rw [extension?] at h
  split at h
  next hshort =>
    cases h
    have hsplit := List.takeWhile_append_dropWhile (p := (· != '.')) (l := name.toList.reverse)
    have hdot : '.' ∉ name.toList.reverse.takeWhile (· != '.') := fun hmem => by
      simpa using List.mem_takeWhile_imp hmem
    have hhead := List.head?_dropWhile_not (· != '.') name.toList.reverse
    generalize name.toList.reverse.takeWhile (· != '.') = tail at hsplit hshort hdot ⊢
    generalize name.toList.reverse.dropWhile (· != '.') = rest at hsplit hhead
    have hlength : name.length = tail.length + rest.length := by
      rw [← String.length_toList, ← List.length_reverse, ← hsplit, List.length_append]
    rw [String.toList_ofList, List.mem_reverse]
    refine ⟨hdot, ?_⟩
    match rest with
    | [] | [_] =>
        simp only [List.length_nil, List.length_singleton] at hlength
        omega
    | first :: second :: start =>
        obtain rfl : first = '.' := by simpa using hhead
        refine ⟨String.ofList (second :: start).reverse, by simp, ?_⟩
        rw [← String.toList_inj, ← List.reverse_inj, ← hsplit]
        simp
  next => cases h

/-- The extension is what follows the last dot, which is not the first character. -/
theorem extension?_eq_some_iff :
    extension? name = some extension ↔
      '.' ∉ extension.toList ∧ ∃ stem, stem ≠ "" ∧ name = stem ++ "." ++ extension := by
  constructor
  · exact exists_stem_of_extension?
  · rintro ⟨hdot, stem, hstem, rfl⟩
    exact extension?_append hstem hdot

end Path

end Extensions

namespace FileTree

variable {tree : FileTree} {path found : Path} {directory : Location} {paths : List Path}

/-- A location is that of a dump if its last name has something before the extension. -/
theorem namesDump_iff {below : Location} :
    namesDump below = true ↔
      ∃ start name stem, below = start ++ [name] ∧ stem ≠ "" ∧ name.text = stem ++ ".json" := by
  have hextension : ∀ text : String, Path.extension? text = some "json" ↔
      ∃ stem, stem ≠ "" ∧ text = stem ++ ".json" := by
    intro text
    rw [Path.extension?_eq_some_iff, and_iff_right (by decide)]
    refine exists_congr fun stem => and_congr_right fun _ => ?_
    rw [String.append_assoc]
    rfl
  rw [namesDump]
  cases hlast : below.getLast? with
  | none =>
      rw [List.getLast?_eq_none_iff.1 hlast]
      simp
  | some name =>
      obtain ⟨start, rfl⟩ := List.getLast?_eq_some_iff.1 hlast
      simp only [beq_iff_eq, hextension]
      constructor
      · rintro ⟨stem, hstem, htext⟩
        exact ⟨start, name, stem, rfl, hstem, htext⟩
      · rintro ⟨_, _, stem, heq, hstem, htext⟩
        rw [List.singleton_inj.1 (List.append_inj_right' heq rfl)]
        exact ⟨stem, hstem, htext⟩

/-- The paths that are found below a directory are those of files with names of dumps. -/
theorem mem_discover_iff (hresolve : tree.resolve path = .ok (.directory directory))
    (h : tree.discover path = .ok paths) :
    found ∈ paths ↔ ∃ start name stem, found = pathBelow path (start ++ [name]) ∧
      tree.HasFile (directory ++ (start ++ [name])) ∧ stem ≠ "" ∧ name.text = stem ++ ".json" := by
  obtain ⟨locations, hsearch, rfl⟩ := exists_searches_of_discover hresolve h
  have hmem (below : Location) : below ∈ locations ↔ tree.HasFile (directory ++ below) :=
    (hsearch.mem_iff rfl).trans
      (and_iff_left ⟨[], List.mem_cons_self, List.nil_prefix⟩)
  rw [dumpPaths, List.mem_mergeSort, List.mem_map]
  constructor
  · rintro ⟨below, hbelow, rfl⟩
    obtain ⟨hlocation, hdump⟩ := List.mem_filter.1 hbelow
    obtain ⟨start, name, stem, rfl, hstem, htext⟩ := namesDump_iff.1 hdump
    exact ⟨start, name, stem, rfl, (hmem _).1 hlocation, hstem, htext⟩
  · rintro ⟨start, name, stem, rfl, hfile, hstem, htext⟩
    refine ⟨start ++ [name], List.mem_filter.2 ⟨(hmem _).2 hfile, ?_⟩, rfl⟩
    exact namesDump_iff.2 ⟨start, name, stem, rfl, hstem, htext⟩

/-- No path is found twice. -/
theorem nodup_discover (hresolve : tree.resolve path = .ok (.directory directory))
    (h : tree.discover path = .ok paths) : paths.Nodup := by
  have hpath := text_ne_empty_of_locate (resolve_eq_ok_iff.1 hresolve)
  obtain ⟨locations, hsearch, rfl⟩ := exists_searches_of_discover hresolve h
  have hnodup := hsearch.nodup rfl (List.pairwise_singleton _ _)
  refine (List.mergeSort_perm _ _).nodup_iff.2 ((hnodup.filter _).map ?_)
  intro below other heq
  exact pathBelow_injective hpath (congrArg Path.parts heq)

/-- The paths that are found stand in their order, and none has the parts of another. -/
theorem pairwise_before_discover (hresolve : tree.resolve path = .ok (.directory directory))
    (h : tree.discover path = .ok paths) : paths.Pairwise Path.Before := by
  have hpath := text_ne_empty_of_locate (resolve_eq_ok_iff.1 hresolve)
  have hsorted := List.pairwise_and_iff.2 ⟨pairwise_discover h, nodup_discover hresolve h⟩
  refine hsorted.imp_of_mem ?_
  rintro a b ha hb ⟨hle, hne⟩
  obtain ⟨start, name, -, rfl, -⟩ := (mem_discover_iff hresolve h).1 ha
  obtain ⟨start', name', -, rfl, -⟩ := (mem_discover_iff hresolve h).1 hb
  refine Path.before_of_order ?_
  cases horder : Path.order (pathBelow path (start ++ [name])) (pathBelow path (start' ++ [name']))
  case lt => rfl
  case eq =>
    rw [pathBelow_injective hpath (Std.LawfulEqOrd.eq_of_compare horder)] at hne
    exact absurd rfl hne
  case gt =>
    rw [horder] at hle
    cases hle

/-- The path of a file leads to the file, if the directory that it is in may be passed. -/
theorem exists_resolve_of_hasFile (hresolve : tree.resolve path = .ok (.directory directory))
    (hopens : tree.Opens directory) {above : Location} {name : FileName}
    (hpass : tree.allows .pass (directory ++ above) = true)
    (h : tree.HasFile (directory ++ (above ++ [name]))) :
    ∃ entry, tree.resolve (pathBelow path (above ++ [name])) = .ok entry ∧
      entry.location = directory ++ (above ++ [name]) := by
  obtain ⟨entry, hentry⟩ := h.exists_standing
  refine ⟨entry, ?_, (stands_of_standing? hentry).1⟩
  rw [resolve_pathBelow hresolve hopens hentry, if_pos hpass]

end FileTree

namespace Analyze

variable {tree : FileTree} {request : AnalyzeRequest} {paths : List Path} {colors : Bool}

/-- An analysis reports on the contexts of all dumps that are found, if all are loaded. -/
theorem course_result_eq_ok_iff (hpaths : tree.discover request.path = .ok paths)
    {success : Success} :
    (course tree request colors).result = .ok success ↔
      ∃ config dumps, Config.load tree (configPath request) = .ok config ∧
        List.Forall₂ (fun path contexts => Context.load tree path = .ok contexts) paths dumps ∧
        (examine request colors config (kept config dumps.flatten)).result = .ok success := by
  constructor
  · intro h
    rcases course_cases tree request with ⟨failure, hconfig⟩ | ⟨config, error, hconfig, hwalk⟩ |
      ⟨config, others, path, failure, hconfig, hwalk, hrefused⟩ | ⟨config, others, dumps, hloads⟩
    · rw [course_of_config_error hconfig] at h
      cases h
    · rw [hpaths] at hwalk
      cases hwalk
    · rw [course_of_firstRefused hconfig hwalk hrefused] at h
      cases h
    · obtain rfl : others = paths := by
        have hwalked := hloads.walked
        rw [hpaths] at hwalked
        cases hwalked
        rfl
      rw [course_of_loads hloads] at h
      exact ⟨config, dumps, hloads.configured, hloads.loaded, h⟩
  · rintro ⟨config, dumps, hconfig, hloaded, h⟩
    rw [course_of_loads ⟨hconfig, hpaths, hloaded⟩]
    exact h

/-- One file with all contexts, in order, gives the same report. -/
theorem course_result_of_joined {config : Config} {dumps : List (List Context)}
    (h : Loads tree request config paths dumps) {other : FileTree} {joined : Path}
    {location : Location} {bytes : ByteArray}
    (hconfig : Config.load other (configPath request) = .ok config)
    (hresolve : other.resolve joined = .ok (.file location bytes))
    (hjoined : Context.load other joined = .ok dumps.flatten) :
    (course other { request with path := joined } colors).result =
      (course tree request colors).result := by
  have hloads : Loads other { request with path := joined } config [joined] [dumps.flatten] :=
    ⟨hconfig, FileTree.discover_of_resolve hresolve, .cons hjoined .nil⟩
  rw [course_of_loads hloads, course_of_loads h, List.flatten_singleton]
  rfl

end Analyze

open FileTree Analyze in
/--
A path that leads to a file names the file, whatever it is called.  A path that leads to
a directory names the files below it, at any depth, whose names end in the extension of
dumps with something before it, each once and in the order of their paths, if all
directories below it can be opened; otherwise one that cannot is reported.  Every search
comes to the same list, in whatever orders the directories are listed.  An analysis of
the directory reports on the contexts of these files, one after another, as does an
analysis of one file that holds them all.
-/
theorem FileTree.discovery_is_exact (tree : FileTree) (path : Path) :
    (∀ entry, tree.resolve path = .ok entry → tree.HasFile entry.location →
      tree.discover path = .ok [path]) ∧
    ∀ directory, tree.resolve path = .ok (.directory directory) →
      ((∃ paths, tree.discover path = .ok paths) ↔
        ∀ below, tree.isDirectory (directory ++ below) = true →
          tree.opens directory below = true) ∧
      (∀ error, tree.discover path = .error error →
        ∃ below, tree.Blocked directory below ∧ error = ⟨pathBelow path below, .denied⟩) ∧
      (∃ result, tree.Searches directory [[]] result) ∧
      (∀ found, tree.Searches directory [[]] (.ok found) →
        tree.discover path = .ok (((found.filter namesDump).map (pathBelow path)).mergeSort
          fun a b => (Path.order a b).isLE)) ∧
      ∀ paths, tree.discover path = .ok paths →
        (∀ found, found ∈ paths ↔ ∃ start name stem, found = pathBelow path (start ++ [name]) ∧
          tree.HasFile (directory ++ (start ++ [name])) ∧ stem ≠ "" ∧
          name.text = stem ++ ".json") ∧
        paths.Nodup ∧ paths.Pairwise Path.Before ∧
        (∀ above name, tree.HasFile (directory ++ (above ++ [name])) →
          tree.allows .pass (directory ++ above) = true →
          ∃ entry, tree.resolve (pathBelow path (above ++ [name])) = .ok entry ∧
            entry.location = directory ++ (above ++ [name])) ∧
        ∀ (request : AnalyzeRequest) (colors : Bool), request.path = path →
          (∀ success, (course tree request colors).result = .ok success ↔
            ∃ config dumps, Config.load tree (configPath request) = .ok config ∧
              List.Forall₂ (fun file contexts => Context.load tree file = .ok contexts)
                paths dumps ∧
              (examine request colors config (kept config dumps.flatten)).result = .ok success) ∧
          ∀ config dumps, Config.load tree (configPath request) = .ok config →
            List.Forall₂ (fun file contexts => Context.load tree file = .ok contexts) paths dumps →
            ∀ other joined location bytes,
              Config.load other (configPath request) = .ok config →
              other.resolve joined = .ok (.file location bytes) →
              Context.load other joined = .ok dumps.flatten →
              (course other { request with path := joined } colors).result =
                (course tree request colors).result := by
  refine ⟨fun entry hresolve hfile => ?_, fun directory hresolve => ?_⟩
  · cases entry with
    | file location bytes => exact discover_of_resolve hresolve
    | sealed location => exact discover_of_sealed hresolve
    | directory location =>
        have hplain : tree.isDirectory location = false := hfile.isDirectory
        rw [isDirectory_of_resolve hresolve] at hplain
        cases hplain
  · refine ⟨exists_discover_iff hresolve, fun error => discover_eq_error hresolve,
      ⟨_, searches_of_isDirectory (isDirectory_of_resolve hresolve)⟩,
      fun found => discover_of_searches hresolve, fun paths hpaths => ?_⟩
    have hopens : tree.Opens directory := (exists_discover_iff hresolve).1 ⟨paths, hpaths⟩
    refine ⟨fun found => mem_discover_iff hresolve hpaths, nodup_discover hresolve hpaths,
      pairwise_before_discover hresolve hpaths,
      fun above name hfile hpass => exists_resolve_of_hasFile hresolve hopens hpass hfile, ?_⟩
    rintro request colors rfl
    refine ⟨fun success => course_result_eq_ok_iff hpaths, ?_⟩
    intro config dumps hconfig hloaded other joined location bytes hother hjoined hcontents
    exact course_result_of_joined ⟨hconfig, hpaths, hloaded⟩ hother hjoined hcontents

open FileTree Analyze in
/--
A directory with two dumps, one of them further down, a file that is not one and a link
to a dump.  The dumps are found in the order of their names, not of their texts, and give
the report that one file with both contexts gives.
-/
theorem FileTree.discovery_of_two_dumps :
    let first := Context.bare .class "A" 1
    let second := Context.bare .class "B" 2
    let dumps : FileName := ⟨"dumps", by decide⟩
    let deep : Location := [dumps, ⟨"a", by decide⟩, ⟨"x.json", by decide⟩]
    let flat : Location := [dumps, ⟨"a-b.json", by decide⟩]
    let odd : Location := [dumps, ⟨".json", by decide⟩]
    let files (one other : ByteArray) : FileTree :=
      ((((FileTree.emptyAt [⟨"home", by decide⟩]).put flat other).put odd "none".toUTF8).put
        deep one).putLink [dumps, ⟨"b.json", by decide⟩] ⟨"a-b.json"⟩
    let tree := files (Context.dump [first]).compact.toUTF8 (Context.dump [second]).compact.toUTF8
    let other := FileTree.empty.put [⟨"all.txt", by decide⟩]
      (Context.dump [first, second]).compact.toUTF8
    let request : AnalyzeRequest := ⟨⟨"/dumps"⟩, none, [], none, false, false⟩
    tree.discover ⟨"../dumps/.json"⟩ = .ok [⟨"../dumps/.json"⟩] ∧
    tree.discover ⟨"/dumps"⟩ = .ok [⟨"/dumps/a/x.json"⟩, ⟨"/dumps/a-b.json"⟩] ∧
    (course other { request with path := ⟨"all.txt"⟩ } false).result =
      (course tree request false).result := by
  intro first second dumps deep flat odd files tree other request
  have hresolve : tree.resolve ⟨"/dumps"⟩ = .ok (.directory [dumps]) := by
    with_unfolding_all rfl
  have hodd : tree.resolve ⟨"../dumps/.json"⟩ = .ok (.file odd "none".toUTF8) := by
    with_unfolding_all rfl
  have hdeep (one other : ByteArray) :
      (files one other).resolve ⟨"/dumps/a/x.json"⟩ = .ok (.file deep one) := by
    with_unfolding_all rfl
  have hflat (one other : ByteArray) :
      (files one other).resolve ⟨"/dumps/a-b.json"⟩ = .ok (.file flat other) := by
    with_unfolding_all rfl
  have hjoined : other.resolve ⟨"all.txt"⟩ =
      .ok (.file [⟨"all.txt", by decide⟩] (Context.dump [first, second]).compact.toUTF8) :=
    resolve_of_file? ⟨"all.txt", by decide⟩ (file?_put_self _ _ _) rfl rfl rfl
  have hsearch : tree.Searches [dumps] [[]]
      (.ok [[⟨"a", by decide⟩, ⟨"x.json", by decide⟩], [⟨"a-b.json", by decide⟩],
        [⟨".json", by decide⟩]]) := by
    have houter : tree.Lists [dumps]
        [⟨"a", by decide⟩, ⟨"a-b.json", by decide⟩, ⟨".json", by decide⟩,
          ⟨"b.json", by decide⟩] := (lists_known tree _).of_perm (by decide +kernel)
    have hinner : tree.Lists [dumps, ⟨"a", by decide⟩] [⟨"x.json", by decide⟩] :=
      (lists_known tree _).of_perm (by decide +kernel)
    refine .listing rfl rfl houter (.listing rfl rfl hinner ?_)
    exact .file (.inl ⟨_, rfl⟩) (.file (.inl ⟨_, rfl⟩) (.file (.inl ⟨_, rfl⟩) (.skip rfl .done)))
  have hconfig : ∀ files : FileTree, files.present (configPath request) = false →
      Config.load files (configPath request) = .ok Config.default := by
    intro files habsent
    rw [Config.load, habsent]
    rfl
  have hfirst : Context.load tree ⟨"/dumps/a/x.json"⟩ = .ok [first] :=
    Context.load_of_resolve (hdeep _ _)
      (Context.parseDump_dump_of_bare (by decide +kernel) (by decide +kernel))
  have hsecond : Context.load tree ⟨"/dumps/a-b.json"⟩ = .ok [second] :=
    Context.load_of_resolve (hflat _ _)
      (Context.parseDump_dump_of_bare (by decide +kernel) (by decide +kernel))
  have hboth : Context.load other ⟨"all.txt"⟩ = .ok [first, second] :=
    Context.load_of_resolve hjoined
      (Context.parseDump_dump_of_bare (by decide +kernel) (by decide +kernel))
  obtain ⟨hfile, -⟩ := discovery_is_exact tree ⟨"../dumps/.json"⟩
  obtain ⟨-, hdirectory⟩ := discovery_is_exact tree ⟨"/dumps"⟩
  obtain ⟨-, -, -, hsorted, hfound⟩ := hdirectory _ hresolve
  have hpaths : tree.discover ⟨"/dumps"⟩ = .ok [⟨"/dumps/a/x.json"⟩, ⟨"/dumps/a-b.json"⟩] := by
    rw [hsorted _ hsearch, List.mergeSort_of_pairwise (by decide +kernel)]
    decide +kernel
  obtain ⟨-, -, -, -, hreport⟩ := hfound _ hpaths
  obtain ⟨-, hsame⟩ := hreport request false rfl
  exact ⟨hfile _ hodd (.inl ⟨_, rfl⟩), hpaths,
    hsame Config.default [[first], [second]] (hconfig tree (by decide +kernel))
      (.cons hfirst (.cons hsecond .nil)) other ⟨"all.txt"⟩ _ _
      (hconfig other (by decide +kernel)) hjoined hboth⟩

end CodeSmells
