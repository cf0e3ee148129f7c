import CodeSmells.Proofs.Registry
import CodeSmells.Detector.BooleanParameter
import CodeSmells.Proofs.WarningOrder
import CodeSmells.Report.Text

/-!
# Reports do not depend on the order of contexts

The warnings of a report are sorted.  Warnings that the order does not tell
apart differ at most in the spelling of their source, so the same warnings in
another order give the same report up to such spellings.

**Results.**

* `sortWarnings_pairwise`, `sortWarnings_perm`: sorting sorts.
* `map_key_sortWarnings`: the keys of sorted warnings depend on the warnings alone.
* `countSmellTypes_eq_of_same`: so do the counts.
* `getD_countSmellTypes`: a smell type is counted as often as it occurs.
* `report_independent_of_order`: contexts in another order give the same report.
-/

namespace CodeSmells
namespace Report

open Std

section Sorting

theorem sortWarnings_perm (warnings : List Warning) :
    (sortWarnings warnings).Perm warnings :=
  List.mergeSort_perm _ _

theorem sortWarnings_pairwise (warnings : List Warning) :
    (sortWarnings warnings).Pairwise fun a b => (Warning.order a b).isLE = true :=
  pairwise_mergeSort_isLE Warning.order warnings

/-- The keys of sorted warnings depend on the warnings alone. -/
theorem map_key_sortWarnings {warnings others : List Warning} (h : warnings.Perm others) :
    (sortWarnings warnings).map Warning.key = (sortWarnings others).map Warning.key := by
  have hsorted (ws : List Warning) : ((sortWarnings ws).map Warning.key).Pairwise
      fun a b => (Warning.keyOrder a b).isLE = true :=
    List.pairwise_map.2 (sortWarnings_pairwise ws)
  have hperm : (sortWarnings warnings).Perm (sortWarnings others) :=
    (sortWarnings_perm warnings).trans (h.trans (sortWarnings_perm others).symm)
  exact List.Perm.eq_of_pairwise
    (fun _ _ _ _ hab hba => Warning.keyOrder_antisymm hab hba)
    (hsorted warnings) (hsorted others) (hperm.map Warning.key)

/-- Sorted warnings are `same`, place by place. -/
theorem sortWarnings_same {warnings others : List Warning} (h : warnings.Perm others) :
    List.Forall₂ (fun a b => a.same b = true) (sortWarnings warnings)
      (sortWarnings others) := by
  have hkeys : List.Forall₂ Eq ((sortWarnings warnings).map Warning.key)
      ((sortWarnings others).map Warning.key) := by
    rw [map_key_sortWarnings h, List.forall₂_same]
    intro key _
    rfl
  rw [List.forall₂_map_left_iff, List.forall₂_map_right_iff] at hkeys
  exact hkeys.imp fun a b hab => Warning.same_iff.2 hab

/-- Warnings that are `same` place by place are equal if they spell equal paths alike. -/
theorem eq_of_same {warnings others : List Warning}
    (h : List.Forall₂ (fun a b => a.same b = true) warnings others)
    (hspelling : ∀ a ∈ warnings, ∀ b ∈ others,
      a.source.same b.source = true → a.source.text = b.source.text) :
    warnings = others := by
  induction h with
  | nil => rfl
  | @cons a b as bs hab _ ih =>
      have hpaths : a.source.same b.source = true := by
        have hkey := congrArg Warning.Key.source (Warning.same_iff.1 hab)
        exact Path.same_iff.2 hkey
      have htext := hspelling a List.mem_cons_self b List.mem_cons_self hpaths
      have htail : as = bs := ih fun a' ha' b' hb' =>
        hspelling a' (List.mem_cons_of_mem _ ha') b' (List.mem_cons_of_mem _ hb')
      rw [Warning.eq_of_same hab htext, htail]

/-- If equal paths are spelled alike, the sorted warnings are equal. -/
theorem sortWarnings_eq {warnings others : List Warning} (h : warnings.Perm others)
    (hspelling : ∀ a ∈ warnings, ∀ b ∈ warnings,
      a.source.same b.source = true → a.source.text = b.source.text) :
    sortWarnings warnings = sortWarnings others := by
  apply eq_of_same (sortWarnings_same h)
  intro a ha b hb
  have ha' : a ∈ warnings := (sortWarnings_perm warnings).mem_iff.1 ha
  have hb' : b ∈ warnings := h.mem_iff.2 ((sortWarnings_perm others).mem_iff.1 hb)
  exact hspelling a ha' b hb'

end Sorting

section Counts

/-- Counts look at nothing but the smell types. -/
theorem countSmellTypes_eq_foldl (warnings : List Warning) :
    countSmellTypes warnings =
      (warnings.map Warning.smellType).foldl countName NameMap.empty := by
  rw [countSmellTypes, List.foldl_map]

/-- Counting a list of names adds their occurrences to the counts so far. -/
theorem getD_foldl_countName (names : List String) (counts : NameMap Nat) (name : String) :
    ((names.foldl countName counts).get? name).getD 0 =
      (counts.get? name).getD 0 + names.count name := by
  induction names generalizing counts with
  | nil => simp
  | cons first names ih =>
      rw [List.foldl_cons, ih, countName, NameMap.get?_insert, List.count_cons]
      by_cases hfirst : first = name
      · subst hfirst
        simp only [if_true, Option.getD_some, beq_self_eq_true]
        omega
      · simp [hfirst]

/-- A smell type is counted as often as it occurs. -/
theorem getD_countSmellTypes (warnings : List Warning) (name : String) :
    ((countSmellTypes warnings).get? name).getD 0 =
      (warnings.map Warning.smellType).count name := by
  have hempty : (NameMap.empty : NameMap Nat).get? name = none := rfl
  rw [countSmellTypes_eq_foldl, getD_foldl_countName, hempty, Option.getD_none, Nat.zero_add]

theorem countSmellTypes_eq_of_same {warnings others : List Warning}
    (h : List.Forall₂ (fun a b => a.same b = true) warnings others) :
    countSmellTypes warnings = countSmellTypes others := by
  have hnames : warnings.map Warning.smellType = others.map Warning.smellType := by
    induction h with
    | nil => rfl
    | cons hab _ ih =>
        have hsmell := congrArg Warning.Key.smellType (Warning.same_iff.1 hab)
        simp only [Warning.key] at hsmell
        rw [List.map_cons, List.map_cons, hsmell, ih]
  rw [countSmellTypes_eq_foldl, countSmellTypes_eq_foldl, hnames]

end Counts

/--
Contexts in another order give the same report: as many contexts and warnings,
the same counts, and warnings that are `same` place by place.  If equal paths
are spelled alike, both reports are written alike.
-/
theorem report_independent_of_order (smellTypes : List SmellType) (config : Config)
    {contexts others : List Context} {warnings : List Warning}
    (hperm : contexts.Perm others)
    (hok : (Registry.ofConfig smellTypes config).examineAll contexts = .ok warnings) :
    ∃ found, (Registry.ofConfig smellTypes config).examineAll others = .ok found ∧
      let report := ofWarnings contexts.length warnings
      let other := ofWarnings others.length found
      report.contextsExamined = other.contextsExamined ∧
      report.totalWarnings = other.totalWarnings ∧
      report.countsBySmellType = other.countsBySmellType ∧
      List.Forall₂ (fun a b => a.same b = true) report.warnings other.warnings ∧
      ((∀ a ∈ warnings, ∀ b ∈ warnings,
          a.source.same b.source = true → a.source.text = b.source.text) →
        report.toJson.compact = other.toJson.compact ∧ report.json = other.json ∧
          ∀ quiet colors, report.text quiet colors = other.text quiet colors) := by
  obtain ⟨found, hfound, hwarnings⟩ := Registry.examineAll_perm hperm hok
  refine ⟨found, hfound, ?_⟩
  intro report other
  have hsame := sortWarnings_same hwarnings
  refine ⟨hperm.length_eq, hsame.length_eq, countSmellTypes_eq_of_same hsame, hsame, ?_⟩
  intro hspelling
  have hreport : report = other := by
    simp only [report, other, ofWarnings, hperm.length_eq, sortWarnings_eq hwarnings hspelling]
  rw [hreport]
  exact ⟨rfl, rfl, fun _ _ => rfl⟩

/-- Two methods with a boolean default each are reported alike in either order. -/
theorem report_on_two_methods :
    let first := ((Context.bare .method "B#b" 1).withSource ⟨"b.rb"⟩).withDefault "flag" .true
    let second := ((Context.bare .method "A#a" 2).withSource ⟨"a.rb"⟩).withDefault "deep" .false
    let registry := Registry.ofConfig [BooleanParameter.smellType] Config.default
    ∃ warnings found, registry.examineAll [first, second] = .ok warnings ∧
      registry.examineAll [second, first] = .ok found ∧ warnings.length = 2 ∧
      (ofWarnings 2 warnings).json = (ofWarnings 2 found).json := by
  intro first second registry
  let warnings := [BooleanParameter.warningFor first ⟨"flag", .true⟩,
    BooleanParameter.warningFor second ⟨"deep", .false⟩]
  have hok : registry.examineAll [first, second] = .ok warnings := by decide +kernel
  have hspelling : ∀ a ∈ warnings, ∀ b ∈ warnings,
      a.source.same b.source = true → a.source.text = b.source.text := by decide +kernel
  obtain ⟨found, hfound, -, -, -, -, hwritten⟩ :=
    report_independent_of_order [BooleanParameter.smellType] Config.default
      (List.Perm.swap second first []) hok
  exact ⟨warnings, found, hok, hfound, rfl, (hwritten hspelling).2.1⟩

end Report
end CodeSmells
