import CodeSmells.Proofs.Arguments
import CodeSmells.Proofs.Report.Counts
import CodeSmells.Proofs.Selection

/-!
# Lists of smell types

Smell types are sorted by their names, and those of one name keep their places.  A
list of names selects the smell types that it names; only the empty list selects
all.  Sorting and selecting may be exchanged, and of the names only the set counts,
so that the outcome of an analysis does not hang on how they are given.

**Results.**

* `sort_perm`, `pairwise_sort`, `filter_sort`: what sorting does.
* `eq_of_filter_eq`: sorted lists with the same smell types of each name, in order, are equal.
* `sort_select`: sorting and selecting may be exchanged.
* `course_of_sameNames`: an analysis looks at the set of names only.
* `sorting_and_selecting`: all of these, up to whole command lines.
-/

namespace CodeSmells

namespace SmellType

variable {smellTypes others : List SmellType} {names : List String}

/-- Whether the smell type goes by a name. -/
def hasName (name : String) (smellType : SmellType) : Bool :=
  smellType.name == name

theorem hasName_iff {name : String} {smellType : SmellType} :
    smellType.hasName name = true ↔ smellType.name = name :=
  beq_iff_eq

section Sorting

theorem name_le_trans (a b c : SmellType) (hab : decide (a.name ≤ b.name) = true)
    (hbc : decide (b.name ≤ c.name) = true) : decide (a.name ≤ c.name) = true := by
  rw [decide_eq_true_iff] at hab hbc ⊢
  exact String.le_trans hab hbc

theorem name_le_total (a b : SmellType) :
    (decide (a.name ≤ b.name) || decide (b.name ≤ a.name)) = true := by
  rw [Bool.or_eq_true, decide_eq_true_iff, decide_eq_true_iff]
  exact String.le_total a.name b.name

theorem sort_perm (smellTypes : List SmellType) : (sort smellTypes).Perm smellTypes :=
  List.mergeSort_perm smellTypes _

theorem pairwise_sort (smellTypes : List SmellType) :
    (sort smellTypes).Pairwise fun a b => a.name ≤ b.name := by
  have hsorted := List.pairwise_mergeSort name_le_trans name_le_total smellTypes
  exact hsorted.imp fun h => decide_eq_true_iff.1 h

/-- Sorted smell types are left as they are. -/
theorem sort_of_pairwise (h : smellTypes.Pairwise fun a b => a.name ≤ b.name) :
    sort smellTypes = smellTypes :=
  List.mergeSort_of_pairwise (h.imp fun hle => decide_eq_true_iff.2 hle)

/-- Smell types of one name keep their places among each other. -/
theorem filter_sort (name : String) (smellTypes : List SmellType) :
    (sort smellTypes).filter (hasName name) = smellTypes.filter (hasName name) := by
  refine Report.filter_mergeSort name_le_trans name_le_total ?_ smellTypes
  intro a b ha hb
  rw [decide_eq_true_iff, hasName_iff.1 ha, hasName_iff.1 hb]

/--
Sorted lists are equal if they have the same smell types of each name, in the same
order.
-/
theorem eq_of_filter_eq (hsorted : smellTypes.Pairwise fun a b => a.name ≤ b.name)
    (hothers : others.Pairwise fun a b => a.name ≤ b.name)
    (h : ∀ name, smellTypes.filter (hasName name) = others.filter (hasName name)) :
    smellTypes = others := by
  have hmem : ∀ {xs ys : List SmellType},
      (∀ name, xs.filter (hasName name) = ys.filter (hasName name)) → ∀ x ∈ xs, x ∈ ys := by
    intro xs ys hfilter x hx
    have hown : x ∈ xs.filter (hasName x.name) := List.mem_filter.2 ⟨hx, hasName_iff.2 rfl⟩
    rw [hfilter] at hown
    exact List.mem_of_mem_filter hown
  induction smellTypes generalizing others with
  | nil =>
      cases others with
      | nil => rfl
      | cons other others =>
          have hnone := hmem (fun name => (h name).symm) other List.mem_cons_self
          cases hnone
  | cons smellType smellTypes ih =>
      cases others with
      | nil =>
          have hnone := hmem h smellType List.mem_cons_self
          cases hnone
      | cons other others =>
          rw [List.pairwise_cons] at hsorted hothers
          -- Both lists start with the least name.
          have hname : smellType.name = other.name := by
            apply String.le_antisymm
            · rcases List.mem_cons.1 (hmem (fun name => (h name).symm) other List.mem_cons_self)
                with rfl | hlater
              · exact String.le_refl _
              · exact hsorted.1 other hlater
            · rcases List.mem_cons.1 (hmem h smellType List.mem_cons_self) with rfl | hlater
              · exact String.le_refl _
              · exact hothers.1 smellType hlater
          have hfirst := h other.name
          rw [List.filter_cons_of_pos (hasName_iff.2 hname),
            List.filter_cons_of_pos (hasName_iff.2 rfl)] at hfirst
          obtain ⟨rfl, hrest⟩ := List.cons.inj hfirst
          rw [ih hsorted.2 hothers.2 fun name => ?_]
          have hfilter := h name
          rw [List.filter_cons, List.filter_cons] at hfilter
          split at hfilter
          next => exact (List.cons.inj hfilter).2
          next => exact hfilter

end Sorting

section Selecting

theorem select_nil (smellTypes : List SmellType) : select smellTypes [] = smellTypes :=
  rfl

theorem select_sublist (smellTypes : List SmellType) (names : List String) :
    (select smellTypes names).Sublist smellTypes := by
  by_cases hnames : names = []
  · rw [hnames, select_nil]
  · rw [select_eq_filter hnames]
    exact List.filter_sublist

/-- All smell types of a name are selected, or none of them. -/
theorem filter_select (hnames : names ≠ []) (name : String) :
    (select smellTypes names).filter (hasName name) =
      if name ∈ names then smellTypes.filter (hasName name) else [] := by
  rw [select_eq_filter hnames, List.filter_filter]
  split
  next hmem =>
    refine List.filter_congr fun smellType _ => ?_
    cases hname : smellType.hasName name with
    | false => rfl
    | true => simp [hasName_iff.1 hname, hmem]
  next hmem =>
    rw [List.filter_eq_nil_iff]
    rintro smellType - hboth
    rw [Bool.and_eq_true, List.contains_iff_mem, hasName_iff] at hboth
    exact hmem (hboth.1 ▸ hboth.2)

/-- Only the set of names counts. -/
theorem select_congr {more : List String} (h : ∀ name, name ∈ names ↔ name ∈ more)
    (smellTypes : List SmellType) : select smellTypes names = select smellTypes more := by
  by_cases hnames : names = []
  · subst hnames
    have hmore : more = [] := List.eq_nil_iff_forall_not_mem.2 fun name hname => by
      cases (h name).2 hname
    rw [hmore]
  · have hmore : more ≠ [] := by
      rintro rfl
      obtain ⟨name, hname⟩ := List.exists_mem_of_ne_nil names hnames
      cases (h name).1 hname
    rw [select_eq_filter hnames, select_eq_filter hmore]
    refine List.filter_congr fun smellType _ => ?_
    rw [Bool.eq_iff_iff, List.contains_iff_mem, List.contains_iff_mem, h]

/-- A selection from a selection has the names of both lists, even if there are none. -/
theorem select_select {more : List String} (hnames : names ≠ []) (hmore : more ≠ [])
    (smellTypes : List SmellType) :
    select (select smellTypes names) more =
      smellTypes.filter fun smellType =>
        decide (smellType.name ∈ names ∧ smellType.name ∈ more) := by
  rw [select_eq_filter hmore, select_eq_filter hnames, List.filter_filter]
  refine List.filter_congr fun smellType _ => ?_
  rw [Bool.eq_iff_iff, Bool.and_eq_true, List.contains_iff_mem, List.contains_iff_mem,
    decide_eq_true_iff, and_comm]

/-- Sorting and selecting may be exchanged. -/
theorem sort_select (smellTypes : List SmellType) (names : List String) :
    sort (select smellTypes names) = select (sort smellTypes) names := by
  by_cases hnames : names = []
  · rw [hnames, select_nil, select_nil]
  · apply eq_of_filter_eq (pairwise_sort _)
    · exact (pairwise_sort smellTypes).sublist (select_sublist _ names)
    · intro name
      rw [filter_sort, filter_select hnames, filter_select hnames, filter_sort]

end Selecting

end SmellType

section CommandLines

variable {arguments others : List String}

/-- An analysis looks at the set of the names of smell types only. -/
theorem Analyze.course_of_sameNames {request : AnalyzeRequest} {names : List String}
    (h : ∀ name, name ∈ request.smellTypes ↔ name ∈ names) (tree : FileTree) (colors : Bool) :
    course tree { request with smellTypes := names } colors = course tree request colors := by
  have hselected : SmellType.eligible names = SmellType.eligible request.smellTypes :=
    (SmellType.select_congr h SmellType.builtIn).symm
  have hexamine : ∀ config contexts,
      examine { request with smellTypes := names } colors config contexts =
        examine request colors config contexts := by
    intro config contexts
    simp only [examine, hselected]
    rfl
  simp only [course, examineLoaded, hexamine]
  rfl

/-- Command lines that ask for the same up to the names of smell types have one outcome. -/
theorem Command.run_of_sameButNames
    (h : Request.SameButNames (Request.ofArguments? arguments) (Request.ofArguments? others))
    (surroundings : Surroundings) (tree : FileTree) :
    run surroundings tree others = run surroundings tree arguments := by
  simp only [run]
  generalize Request.ofArguments? arguments = asked at h ⊢
  generalize Request.ofArguments? others = asked' at h ⊢
  cases h with
  | same => rfl
  | analyze hnames => simp only [runRequest, Analyze.course_of_sameNames hnames]

/-- The tokens of options, one for each group of names. -/
theorem ArgumentToken.names_of_groups {groups : List (List String)}
    (h : ∀ group ∈ groups, group ≠ [] ∧ ∀ name ∈ group, ',' ∉ name.toList) :
    besides ((groups.map (String.intercalate ",")).map (ArgumentToken.value .smellTypes)) = [] ∧
      ((groups.map (String.intercalate ",")).map (ArgumentToken.value .smellTypes)).flatMap
        ArgumentToken.names = groups.flatten := by
  constructor
  · rw [besides, List.filter_eq_nil_iff]
    intro token htoken
    obtain ⟨text, -, rfl⟩ := List.mem_map.1 htoken
    exact Bool.false_ne_true
  · rw [List.flatMap_map, List.flatMap_map, List.flatten_eq_flatMap]
    refine List.flatMap_congr fun group hgroup => ?_
    exact Text.splitOn_joined (h group hgroup).1 (h group hgroup).2

/-- Options that give the same names, joined with commas or one by one, have one outcome. -/
theorem Command.run_of_options {groups more : List (List String)}
    {options spellings : List (List String)} {before : List String} (hbefore : "--" ∉ before)
    (hne : groups ≠ []) (hne' : more ≠ [])
    (hgroups : ∀ group ∈ groups ++ more, group ≠ [] ∧ ∀ name ∈ group, ',' ∉ name.toList)
    (hnames : ∀ name, name ∈ groups.flatten ↔ name ∈ more.flatten)
    (h : List.Forall₂ ArgumentToken.Names (groups.map (String.intercalate ",")) options)
    (h' : List.Forall₂ ArgumentToken.Names (more.map (String.intercalate ",")) spellings)
    (surroundings : Surroundings) (tree : FileTree) (after : List String) :
    run surroundings tree ("analyze" :: (before ++ (spellings.flatten ++ after))) =
      run surroundings tree ("analyze" :: (before ++ (options.flatten ++ after))) := by
  obtain ⟨hnone, hfound⟩ := ArgumentToken.names_of_groups fun group hgroup =>
    hgroups group (List.mem_append_left more hgroup)
  obtain ⟨hnone', hfound'⟩ := ArgumentToken.names_of_groups fun group hgroup =>
    hgroups group (List.mem_append_right groups hgroup)
  have htokens := ArgumentToken.ofAnalyze_options hbefore (by simpa using hne) h after
  have htokens' := ArgumentToken.ofAnalyze_options hbefore (by simpa using hne') h' after
  apply run_of_sameButNames
  apply Request.sameButNames_of_tokens
  · rw [htokens, htokens']
    simp only [ArgumentToken.besides, List.filter_append] at hnone hnone' ⊢
    rw [hnone, hnone']
  · intro name
    simp only [htokens, htokens', List.flatMap_append, List.mem_append, hfound, hfound', hnames]

end CommandLines

/--
Sorting keeps every smell type and orders them by the bytes of their names; those of
one name keep their places.  A list of names selects, in order, all smell types of
the names in it; a list without names selects all.  Selecting from a selection
leaves the smell types that both lists name, and sorting may come before or after.
The outcome of an analysis depends on the set of names that its options give, not on
how they are joined with commas, ordered or repeated.
-/
theorem SmellType.sorting_and_selecting :
    (∀ smellTypes : List SmellType,
      (sort smellTypes).Perm smellTypes ∧
      (sort smellTypes).Pairwise (fun a b => Text.bytes a.name ≤ Text.bytes b.name) ∧
      (∀ name, (sort smellTypes).filter (hasName name) = smellTypes.filter (hasName name)) ∧
      sort (sort smellTypes) = sort smellTypes ∧
      select smellTypes [] = smellTypes ∧
      ∀ names, sort (select smellTypes names) = select (sort smellTypes) names) ∧
    (∀ (smellTypes : List SmellType) (names : List String), names ≠ [] →
      (select smellTypes names).Sublist smellTypes ∧
      (∀ name, (select smellTypes names).filter (hasName name) =
        if name ∈ names then smellTypes.filter (hasName name) else []) ∧
      (∀ others, (∀ name, name ∈ others ↔ name ∈ names) →
        select smellTypes others = select smellTypes names) ∧
      ∀ others, others ≠ [] → select (select smellTypes names) others =
        smellTypes.filter fun smellType =>
          decide (smellType.name ∈ names ∧ smellType.name ∈ others)) ∧
    (∀ (surroundings : Surroundings) (tree : FileTree) (arguments others : List String),
      ArgumentToken.besides (ArgumentToken.ofAnalyze others) =
        ArgumentToken.besides (ArgumentToken.ofAnalyze arguments) →
      (∀ name, name ∈ (ArgumentToken.ofAnalyze arguments).flatMap ArgumentToken.names ↔
        name ∈ (ArgumentToken.ofAnalyze others).flatMap ArgumentToken.names) →
      Command.run surroundings tree ("analyze" :: others) =
        Command.run surroundings tree ("analyze" :: arguments)) ∧
    ∀ (surroundings : Surroundings) (tree : FileTree) (before after : List String)
      (groups others options spellings : List (List String)),
      "--" ∉ before → groups ≠ [] → others ≠ [] →
      (∀ group ∈ groups ++ others, group ≠ [] ∧ ∀ name ∈ group, ',' ∉ name.toList) →
      (∀ name, name ∈ groups.flatten ↔ name ∈ others.flatten) →
      List.Forall₂ ArgumentToken.Names (groups.map (String.intercalate ",")) options →
      List.Forall₂ ArgumentToken.Names (others.map (String.intercalate ",")) spellings →
      Command.run surroundings tree ("analyze" :: (before ++ (spellings.flatten ++ after))) =
        Command.run surroundings tree ("analyze" :: (before ++ (options.flatten ++ after))) := by
  refine ⟨fun smellTypes => ?_, fun smellTypes names hnames => ?_, ?_, ?_⟩
  · have hbytes : ∀ {a b : SmellType}, a.name ≤ b.name → Text.bytes a.name ≤ Text.bytes b.name :=
      fun hle => List.not_lt.1 fun hlt => String.not_lt.2 hle (Text.bytes_lt_iff.1 hlt)
    exact ⟨sort_perm smellTypes, (pairwise_sort smellTypes).imp hbytes,
      fun name => filter_sort name smellTypes, sort_of_pairwise (pairwise_sort smellTypes),
      select_nil smellTypes, sort_select smellTypes⟩
  · exact ⟨select_sublist smellTypes names, filter_select hnames,
      fun others hsame => select_congr hsame smellTypes,
      fun others hothers => select_select hnames hothers smellTypes⟩
  · intro surroundings tree arguments others hbesides hnames
    exact Command.run_of_sameButNames (Request.sameButNames_of_tokens hbesides hnames)
      surroundings tree
  · intro surroundings tree before after groups others options spellings hbefore hne hne' hgroups
      hnames h h'
    exact Command.run_of_options hbefore hne hne' hgroups hnames h h' surroundings tree after

/-- Two smell types of one name, and command lines that name them in different ways. -/
theorem SmellType.sorting_and_selecting_of_two_names :
    let first : SmellType := ⟨"Echo", "first", BooleanParameter.smellType.build⟩
    let second : SmellType := ⟨"Echo", "second", BooleanParameter.smellType.build⟩
    let smellTypes := [first, BooleanParameter.smellType, second]
    (sort smellTypes).filter (hasName "Echo") = [first, second] ∧
    select smellTypes ["Echo", "Other", "Echo"] = select smellTypes ["Other", "Echo"] ∧
    (select smellTypes ["Echo", "Other", "Echo"]).filter (hasName "Echo") = [first, second] ∧
    select (select smellTypes ["Echo"]) ["BooleanParameter"] = [] ∧
    ∀ (surroundings : Surroundings) (tree : FileTree),
      Command.run surroundings tree
          ["analyze", "-q", "-s", "Echo", "--smell-types=BooleanParameter", "-sEcho", "dumps"] =
        Command.run surroundings tree
          ["analyze", "-q", "--smell-types=BooleanParameter,Echo", "dumps"] := by
  intro first second smellTypes
  obtain ⟨hsort, hselect, -, hoptions⟩ := sorting_and_selecting
  obtain ⟨-, hfilter, hset, htwice⟩ :=
    hselect smellTypes ["Echo", "Other", "Echo"] (List.cons_ne_nil _ _)
  obtain ⟨-, -, -, hboth⟩ := hselect smellTypes ["Echo"] (List.cons_ne_nil _ _)
  refine ⟨((hsort smellTypes).2.2.1 "Echo").trans (by rfl), (hset _ (by grind)).symm,
    (hfilter "Echo").trans (by rfl),
    (hboth ["BooleanParameter"] (List.cons_ne_nil _ _)).trans ?_, ?_⟩
  · exact List.filter_eq_nil_iff.2 (by grind)
  · intro surroundings tree
    exact hoptions surroundings tree ["-q"] ["dumps"] [["BooleanParameter", "Echo"]]
      [["Echo"], ["BooleanParameter"], ["Echo"]] [["--smell-types=BooleanParameter,Echo"]]
      [["-s", "Echo"], ["--smell-types=BooleanParameter"], ["-sEcho"]] (by decide)
      (List.cons_ne_nil _ _) (List.cons_ne_nil _ _) (by decide) (by grind)
      (.cons .word .nil)
      (.cons (.letterApart (by decide)) (.cons .word (.cons (.letter (by decide) (by simp)) .nil)))

end CodeSmells
