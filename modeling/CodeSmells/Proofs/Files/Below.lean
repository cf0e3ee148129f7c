import CodeSmells.Proofs.Files.Walking

/-!
# Paths below a directory

The path of what is below a directory continues the path of the directory, name
by name.  It leads where the names lead from the directory, and it is the path of
nothing else below it.

**Results.**

* `segments_pathBelow`, `start_pathBelow`: the segments of the path of a location below a directory.
* `exists_links`: where such a path leads.
* `parts_pathBelow`: the parts of such a path.
* `pathBelow_injective`: such paths have the same parts only if they are the same.
-/

namespace CodeSmells

variable {tree : FileTree} {path : Path} {name : FileName}

namespace Path

/-- The segments on both sides of a separator stay what they are. -/
theorem segments_append_separator (before after : List Char) :
    segments (before ++ '/' :: after) = segments before ++ segments after := by
  induction before with
  | nil => rfl
  | cons c before ih =>
      by_cases hseparator : c = '/'
      · subst hseparator
        simp only [List.cons_append, segments, ih]
      · rw [List.cons_append, segments, segments, ih]
        · cases hbefore : segments before with
          | nil => exact absurd hbefore (segments_ne_nil before)
          | cons first rest => rfl
        · exact hseparator
        · exact hseparator

theorem endsWith_separator_iff {text : String} :
    text.endsWith "/" = true ↔ ∃ start, text.toList = start ++ ['/'] := by
  rw [String.endsWith_eq_endsWith_toSlice, String.Slice.endsWith_string_iff, String.copy_toSlice]
  exact exists_congr fun start => eq_comm

/-- Only the empty text is one empty segment. -/
theorem eq_nil_of_segments {chars : List Char} (h : segments chars = [[]]) : chars = [] := by
  cases chars with
  | nil => rfl
  | cons c chars =>
      by_cases hseparator : c = '/'
      · subst hseparator
        rw [segments, List.cons.injEq] at h
        exact absurd h.2 (segments_ne_nil chars)
      · rw [segments] at h
        · cases hchars : segments chars with
          | nil => exact absurd hchars (segments_ne_nil chars)
          | cons first rest =>
              rw [hchars] at h
              cases h
        · exact hseparator

/-- The part that the first segment of a path stands for: only there a dot counts. -/
def leadingParts (first : List Char) : List Part :=
  if first = [] then [.root] else if first = ['.'] then [.here] else (part? first).toList

theorem parts_of_segments {first : List Char} {rest : List (List Char)}
    (h : segments path.text.toList = first :: rest) (hempty : path.text ≠ "") :
    path.parts = leadingParts first ++ rest.filterMap part? := by
  rw [parts, h]
  split
  next heq =>
    obtain ⟨rfl, rfl⟩ := List.cons.inj heq
    rfl
  next heq =>
    obtain ⟨rfl, rfl⟩ := List.cons.inj heq
    rfl
  next hhere hroot =>
    have hdot : first ≠ ['.'] := fun hdot => hhere rest (by rw [hdot])
    have hfirst : first ≠ [] := by
      rintro rfl
      cases rest with
      | nil => exact hempty (String.toList_eq_nil_iff.1 (eq_nil_of_segments h))
      | cons second rest => exact hroot second rest rfl
    rw [leadingParts, if_neg hfirst, if_neg hdot, List.filterMap_cons]
    cases part? first <;> rfl

theorem part?_name (name : FileName) : part? name.text.toList = some (.name name.text) := by
  have hempty : name.text.toList ≠ [] := by
    rw [ne_eq, String.toList_eq_nil_iff]
    exact name.text_ne_empty
  have hhere : name.text.toList ≠ ['.'] := fun h => name.text_ne_here (String.toList_inj.1 h)
  have hup : name.text.toList ≠ ['.', '.'] := fun h => name.text_ne_up (String.toList_inj.1 h)
  simp only [part?, hempty, hhere, hup, or_self, if_false, String.ofList_toList]

/--
The path of an entry ends in the name, in the place of the empty segment after a
trailing separator or after the segments of the directory.
-/
theorem segments_child (h : path.text ≠ "") :
    (∃ start, segments path.text.toList = start ++ [[]] ∧ ∀ name : FileName,
      segments (path.child name.text).text.toList = start ++ [name.text.toList]) ∨
    ∀ name : FileName, segments (path.child name.text).text.toList =
      segments path.text.toList ++ [name.text.toList] := by
  have hempty : path.text.isEmpty = false := by
    rw [← Bool.not_eq_true, String.isEmpty_iff]
    exact h
  cases hends : path.text.endsWith "/" with
  | true =>
      obtain ⟨start, hstart⟩ := endsWith_separator_iff.1 hends
      refine .inl ⟨segments start, ?_, fun name => ?_⟩
      · rw [hstart, segments_append_separator]
        rfl
      · rw [child, hempty, hends, Bool.false_or, if_pos rfl, String.toList_append, hstart,
          List.append_assoc, List.singleton_append, segments_append_separator,
          segments_of_notMem name.separator_notMem]
  | false =>
      refine .inr fun name => ?_
      have htext : (path.text ++ "/" ++ name.text).toList =
          path.text.toList ++ '/' :: name.text.toList := by
        simp
      rw [child, hempty, hends, Bool.false_or, if_neg Bool.false_ne_true, htext,
        segments_append_separator, segments_of_notMem name.separator_notMem]

theorem text_child_ne_empty (path : Path) (name : FileName) :
    (path.child name.text).text ≠ "" := by
  have hname := name.text_ne_empty
  rw [child]
  split_ifs <;> simp [hname]

end Path

namespace FileTree

section Segments

/-- The segments of the path of an entry, as those of `Path.segments_child`. -/
theorem segments_child (h : path.text ≠ "") :
    (∃ start, segments path = start ++ [""] ∧
      ∀ name : FileName, segments (path.child name.text) = start ++ [name.text]) ∨
    ∀ name : FileName, segments (path.child name.text) = segments path ++ [name.text] := by
  rcases Path.segments_child h with ⟨start, hpath, hchild⟩ | hchild
  · refine .inl ⟨start.map String.ofList, ?_, fun name => ?_⟩
    · rw [segments, hpath, List.map_append, List.map_singleton, String.ofList_nil]
    · rw [segments, hchild, List.map_append, List.map_singleton, String.ofList_toList]
  · refine .inr fun name => ?_
    rw [segments, hchild, List.map_append, List.map_singleton, String.ofList_toList, segments]

/-- A path that is not empty is more than one empty segment. -/
theorem segments_ne_singleton (h : path.text ≠ "") : segments path ≠ [""] := by
  intro hsegments
  have hlist : (Path.segments path.text.toList).map String.ofList = [[]].map String.ofList :=
    hsegments
  have hinjective : Function.Injective String.ofList := fun a b hab => by
    rw [← String.toList_ofList (l := a), hab, String.toList_ofList]
  exact h (String.toList_eq_nil_iff.1
    (Path.eq_nil_of_segments (List.map_injective_iff.2 hinjective hlist)))

/-- The path of an entry starts where the path of the directory does. -/
theorem start_child (name : FileName) (h : path.text ≠ "") (here : Location) :
    start (path.child name.text) here = start path here := by
  have hhead : (segments (path.child name.text)).head? = (segments path).head? := by
    rcases segments_child h with ⟨before, hpath, hchild⟩ | hchild
    · rw [hpath, hchild]
      cases before with
      | nil => exact absurd hpath (segments_ne_singleton h)
      | cons first rest => rfl
    · rw [hchild, List.head?_append]
      cases hsegments : segments path with
      | nil => exact absurd hsegments (segments_ne_nil path)
      | cons first rest => rfl
  rw [start, start, hhead]

theorem start_pathBelow (below : Location) (h : path.text ≠ "") (here : Location) :
    start (pathBelow path below) here = start path here := by
  induction below generalizing path with
  | nil => rfl
  | cons name below ih =>
      rw [pathBelow, List.foldl_cons, ← pathBelow, ih (Path.text_child_ne_empty path name),
        start_child name h]

theorem text_pathBelow_ne_empty (below : Location) (h : path.text ≠ "") :
    (pathBelow path below).text ≠ "" := by
  induction below generalizing path with
  | nil => exact h
  | cons name below ih =>
      rw [pathBelow, List.foldl_cons, ← pathBelow]
      exact ih (Path.text_child_ne_empty path name)

/-- A path that ends in a name ends in no empty segment. -/
theorem segments_child_child (name next : FileName) (h : path.text ≠ "") :
    segments ((path.child name.text).child next.text) =
      segments (path.child name.text) ++ [next.text] := by
  rcases segments_child (Path.text_child_ne_empty path name) with ⟨start, hpath, -⟩ | hchild
  · have hlast : (segments (path.child name.text)).getLast? = some name.text := by
      rcases segments_child h with ⟨before, -, hname⟩ | hname
      · rw [hname, List.getLast?_concat]
      · rw [hname, List.getLast?_concat]
    rw [hpath, List.getLast?_concat] at hlast
    exact absurd (Option.some.inj hlast).symm name.text_ne_empty
  · exact hchild next

/-- The segments of the path of what is below a directory end in the names. -/
theorem segments_pathBelow (name : FileName) (below : Location) (h : path.text ≠ "") :
    segments (pathBelow path (name :: below)) =
      segments (path.child name.text) ++ below.map FileName.text := by
  induction below generalizing path name with
  | nil => exact (List.append_nil _).symm
  | cons next below ih =>
      have hchild := Path.text_child_ne_empty path name
      rw [pathBelow, List.foldl_cons, ← pathBelow, ih next hchild, segments_child_child name next h,
        List.append_assoc]
      rfl

end Segments

section Ways

variable {rest : List String} {directory : Location}

/-- An empty segment before a name makes no difference. -/
theorem walk_empty_name (links : Nat) (here : Entry) (name : FileName) (rest : List String) :
    tree.walk links here ("" :: name.text :: rest) = tree.walk links here (name.text :: rest) := by
  cases here with
  | file _ _ | sealed _ => rfl
  | directory location => exact walk_of_reached rfl

/-- Ways that lead to the same places from everywhere do so after the same start. -/
theorem walk_append_congr {others : List String} (hrest : rest ≠ []) (hothers : others ≠ [])
    (h : ∀ links here, tree.walk links here rest = tree.walk links here others)
    (links : Nat) (here : Entry) (before : List String) :
    tree.walk links here (before ++ rest) = tree.walk links here (before ++ others) := by
  induction links using Nat.strongRecOn generalizing here before with
  | ind links ihlinks =>
    induction before generalizing here with
    | nil => exact h links here
    | cons segment before ih =>
        rw [List.cons_append, List.cons_append]
        cases hfollow : tree.follow here segment with
        | error error => rw [walk_of_error hfollow, walk_of_error hfollow]
        | ok step =>
            cases step with
            | reached next =>
                rw [walk_of_reached hfollow, walk_of_reached hfollow]
                exact ih next
            | free directory name =>
                rw [walk_of_free hfollow, walk_of_free hfollow]
                simp [hrest, hothers]
            | link directory target =>
                cases links with
                | zero => rw [walk_of_link_exhausted hfollow, walk_of_link_exhausted hfollow]
                | succ links =>
                    by_cases htarget : target.text = ""
                    · rw [walk_of_link_untargeted hfollow htarget,
                        walk_of_link_untargeted hfollow htarget]
                    · rw [walk_of_link hfollow htarget, walk_of_link hfollow htarget,
                        ← List.append_assoc, ← List.append_assoc]
                      exact ihlinks links (Nat.lt_succ_self links) _ _

/-- The path of what is below a directory leads where the names lead from the directory. -/
theorem exists_links (h : tree.resolve path = .ok (.directory directory)) :
    ∃ links, ∀ below, tree.locate (pathBelow path below) =
      tree.walk links (.directory directory) (below.map FileName.text) := by
  have hplace := resolve_eq_ok_iff.1 h
  have htext := text_ne_empty_of_locate hplace
  obtain ⟨links, hlinks⟩ := (leads_of_locate hplace).append rfl
  refine ⟨links, fun below => ?_⟩
  cases below with
  | nil => exact hplace
  | cons name below =>
      rw [locate, if_neg (text_pathBelow_ne_empty _ htext), start_pathBelow _ htext,
        segments_pathBelow name below htext, ← hlinks]
      rcases segments_child htext with ⟨before, hpath, hchild⟩ | hchild
      · rw [hpath, hchild, List.append_assoc, List.append_assoc]
        refine walk_append_congr (List.cons_ne_nil _ _) (List.cons_ne_nil _ _) ?_ _ _ before
        exact fun links here => (walk_empty_name links here name _).symm
      · rw [hchild, List.append_assoc]
        rfl

end Ways

end FileTree

section Parts

theorem Path.parts_child (name : FileName) (h : path.text ≠ "") :
    (path.child name.text).parts = path.parts ++ [.name name.text] := by
  have hname := text_child_ne_empty path name
  cases hsegments : segments path.text.toList with
  | nil => exact absurd hsegments (segments_ne_nil _)
  | cons first rest =>
      rcases segments_child h with ⟨start, hpath, hchild⟩ | hchild
      · rw [hpath] at hsegments
        cases start with
        | nil => exact absurd (String.toList_eq_nil_iff.1 (eq_nil_of_segments hpath)) h
        | cons other start =>
            have hsplit := hchild name
            rw [List.cons_append] at hpath hsplit
            rw [parts_of_segments hpath h, parts_of_segments hsplit hname,
              List.filterMap_append, List.filterMap_append, List.append_assoc, List.append_assoc,
              List.filterMap_cons_some (part?_name name)]
            rfl
      · have hsplit := hchild name
        rw [hsegments, List.cons_append] at hsplit
        rw [parts_of_segments hsegments h, parts_of_segments hsplit hname,
          List.filterMap_append, List.append_assoc, List.filterMap_cons_some (part?_name name)]
        rfl

/-- The parts of the path of what is below a directory end in the names. -/
theorem FileTree.parts_pathBelow (below : Location) (h : path.text ≠ "") :
    (pathBelow path below).parts =
      path.parts ++ below.map fun name => Path.Part.name name.text := by
  induction below generalizing path with
  | nil => exact (List.append_nil _).symm
  | cons name below ih =>
      rw [pathBelow, List.foldl_cons, ← pathBelow, ih (Path.text_child_ne_empty path name),
        Path.parts_child name h, List.append_assoc]
      rfl

/-- Paths of what is below one directory have the same parts only if they are the same. -/
theorem FileTree.pathBelow_injective {below other : Location} (h : path.text ≠ "")
    (hparts : (pathBelow path below).parts = (pathBelow path other).parts) : below = other := by
  rw [parts_pathBelow below h, parts_pathBelow other h] at hparts
  refine List.map_injective_iff.2 ?_ (List.append_cancel_left hparts)
  intro a b hname
  cases a
  cases b
  cases hname
  rfl

end Parts

end CodeSmells
