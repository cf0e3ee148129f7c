import CodeSmells.Proofs.ReportOrder
import CodeSmells.Proofs.Text.ByteOrder
import Mathlib.Algebra.BigOperators.Group.List.Lemmas
import Mathlib.Algebra.GroupWithZero.Nat

/-!
# Reports account for their warnings

A report holds the warnings that it was made of, each of them once, in order, and
says how many there are in all and of each smell type.

**Results.**

* `filter_same_sortWarnings`: warnings that the order does not tell apart keep their places.
* `mem_countSmellTypes_iff`: the count of a smell type is how often it occurs.
* `sum_countSmellTypes`: the counts make up the number of warnings.
* `report_accounts_for_warnings`: the report on a list of warnings.
-/

namespace CodeSmells
namespace Report

open Std

section Sorting

/-- Items that may stand in either order keep their places in a sort. -/
theorem filter_mergeSort {α : Type} {le : α → α → Bool}
    (htrans : ∀ a b c, le a b = true → le b c = true → le a c = true)
    (htotal : ∀ a b, (le a b || le b a) = true) {p : α → Bool}
    (hp : ∀ a b, p a = true → p b = true → le a b = true) (xs : List α) :
    (xs.mergeSort le).filter p = xs.filter p := by
  have hpairwise : (xs.filter p).Pairwise fun a b => le a b = true :=
    List.pairwise_of_forall_mem_list fun a ha b hb =>
      hp a b (List.of_mem_filter ha) (List.of_mem_filter hb)
  have hsublist : (xs.filter p).Sublist (xs.mergeSort le) :=
    List.sublist_mergeSort htrans htotal hpairwise List.filter_sublist
  have hfiltered := hsublist.filter p
  rw [List.filter_filter, List.filter_congr fun x _ => Bool.and_self (p x)] at hfiltered
  have hperm := (List.mergeSort_perm xs le).filter p
  exact (hfiltered.eq_of_length hperm.length_eq.symm).symm

/-- Items that are not told apart by a lawful comparison keep their places in a sort. -/
theorem filter_mergeSort_isLE {α : Type} (compare : α → α → Ordering) [TransCmp compare]
    {p : α → Bool} (hp : ∀ a b, p a = true → p b = true → compare a b = .eq) (xs : List α) :
    (xs.mergeSort fun a b => (compare a b).isLE).filter p = xs.filter p := by
  refine filter_mergeSort (fun _ _ _ => TransCmp.isLE_trans) (isLE_or_isLE compare) ?_ xs
  intro a b ha hb
  rw [hp a b ha hb]
  rfl

/-- Warnings that are `same` keep their places among each other. -/
theorem filter_same_sortWarnings (warning : Warning) (warnings : List Warning) :
    (sortWarnings warnings).filter warning.same = warnings.filter warning.same := by
  apply filter_mergeSort_isLE
  intro a b ha hb
  rw [Warning.order_eq_eq_iff, Warning.same_iff, ← Warning.same_iff.1 ha, Warning.same_iff.1 hb]

/-- Sorted warnings are left as they are. -/
theorem sortWarnings_sortWarnings (warnings : List Warning) :
    sortWarnings (sortWarnings warnings) = sortWarnings warnings :=
  List.mergeSort_of_pairwise (sortWarnings_pairwise warnings)

end Sorting

section Counts

variable {names : List String} {warnings : List Warning}

/-- All counts of a map are positive. -/
def Positive (counts : NameMap Nat) : Prop :=
  ∀ e ∈ counts.entries, 0 < e.2

theorem positive_countName {counts : NameMap Nat} (h : Positive counts) (name : String) :
    Positive (countName counts name) := by
  intro e he
  rcases mem_insertEntry he with rfl | hold
  · exact Nat.succ_pos _
  · exact h e hold

theorem positive_foldl_countName {counts : NameMap Nat} (h : Positive counts) :
    Positive (names.foldl countName counts) := by
  induction names generalizing counts with
  | nil => exact h
  | cons name names ih => exact ih (positive_countName h name)

/-- The count of a smell type is how often it occurs; one that does not occur has no count. -/
theorem mem_countSmellTypes_iff {name : String} {count : Nat} :
    (name, count) ∈ (countSmellTypes warnings).entries ↔
      0 < count ∧ count = (warnings.map Warning.smellType).count name := by
  have hpositive : Positive (countSmellTypes warnings) := by
    rw [countSmellTypes_eq_foldl]
    exact positive_foldl_countName nofun
  have hcount := getD_countSmellTypes warnings name
  constructor
  · intro hmem
    rw [NameMap.mem_entries_iff.1 hmem, Option.getD_some] at hcount
    exact ⟨hpositive _ hmem, hcount⟩
  · rintro ⟨hpos, rfl⟩
    rw [NameMap.mem_entries_iff]
    cases hget : (countSmellTypes warnings).get? name with
    | none =>
        rw [hget, Option.getD_none] at hcount
        omega
    | some found => rw [← hcount, hget, Option.getD_some]

theorem mem_names_countSmellTypes_iff {name : String} :
    name ∈ (countSmellTypes warnings).names ↔ name ∈ warnings.map Warning.smellType := by
  rw [NameMap.names, List.mem_map, ← List.count_pos_iff]
  constructor
  · rintro ⟨⟨_, count⟩, hmem, rfl⟩
    obtain ⟨hpos, rfl⟩ := mem_countSmellTypes_iff.1 hmem
    exact hpos
  · intro hpos
    exact ⟨(name, _), mem_countSmellTypes_iff.2 ⟨hpos, rfl⟩, rfl⟩

/-- The counts make up the number of warnings. -/
theorem sum_countSmellTypes (warnings : List Warning) :
    ((countSmellTypes warnings).entries.map Prod.snd).sum = warnings.length := by
  let types := warnings.map Warning.smellType
  have hcounts : (countSmellTypes warnings).entries.map Prod.snd =
      (countSmellTypes warnings).names.map fun name => types.count name := by
    rw [NameMap.names, List.map_map]
    exact List.map_congr_left fun e he => (mem_countSmellTypes_iff.1 he).2
  have hnames : (countSmellTypes warnings).names.Perm types.dedup := by
    rw [List.perm_ext_iff_of_nodup (NameMap.nodup_names _) (List.nodup_dedup types)]
    intro name
    rw [mem_names_countSmellTypes_iff, List.mem_dedup]
  calc ((countSmellTypes warnings).entries.map Prod.snd).sum
      = (types.dedup.map fun name => types.count name).sum := by
        rw [hcounts, (hnames.map _).sum_eq]
    _ = types.length := List.sum_map_count_dedup_eq_length types
    _ = warnings.length := List.length_map _

end Counts

/--
A report holds its warnings, each of them once, in their order, those that are
`same` in the order in which they were given.  It counts them, in all and for each
smell type that occurs, in the byte order of the smell types, and the counts of the
smell types make up the count of all.  The report on its own warnings is the report.
-/
theorem report_accounts_for_warnings (contextsExamined : Nat) (warnings : List Warning) :
    let report := ofWarnings contextsExamined warnings
    report.contextsExamined = contextsExamined ∧
    report.warnings.Perm warnings ∧
    report.warnings.Pairwise (fun a b => (Warning.order a b).isLE = true) ∧
    (∀ warning : Warning, report.warnings.filter warning.same = warnings.filter warning.same) ∧
    report.totalWarnings = warnings.length ∧
    (∀ name, name ∈ report.countsBySmellType.names ↔
      ∃ warning ∈ warnings, warning.smellType = name) ∧
    (∀ name count, (name, count) ∈ report.countsBySmellType.entries ↔
      0 < count ∧ count = warnings.countP fun warning => warning.smellType == name) ∧
    (report.countsBySmellType.names.map Text.bytes).Pairwise (· < ·) ∧
    (report.countsBySmellType.entries.map Prod.snd).sum = report.totalWarnings ∧
    ofWarnings contextsExamined report.warnings = report := by
  intro report
  have hperm : report.warnings.Perm warnings := sortWarnings_perm warnings
  refine ⟨rfl, hperm, sortWarnings_pairwise warnings,
    fun warning => filter_same_sortWarnings warning warnings, hperm.length_eq, ?_, ?_, ?_,
    sum_countSmellTypes report.warnings, ?_⟩
  · intro name
    have hmem : name ∈ report.countsBySmellType.names ↔
        name ∈ report.warnings.map Warning.smellType := mem_names_countSmellTypes_iff
    rw [hmem, (hperm.map Warning.smellType).mem_iff, List.mem_map]
  · intro name count
    have hmem : (name, count) ∈ report.countsBySmellType.entries ↔
        0 < count ∧ count = (report.warnings.map Warning.smellType).count name :=
      mem_countSmellTypes_iff
    rw [hmem, (hperm.map Warning.smellType).count_eq, List.count, List.countP_map]
    rfl
  · refine List.pairwise_map.2 (NameMap.pairwise_names _ |>.imp ?_)
    exact fun h => Text.bytes_lt_iff.2 h
  · simp only [ofWarnings, report, sortWarnings_sortWarnings]

end Report
end CodeSmells
