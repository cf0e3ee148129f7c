import CodeSmells.Proofs.Report.Counts
import Mathlib.Data.List.Destutter

/-!
# The listing of a report

The text of a report lists its warnings, with the source of a warning before it
where the warning before comes from another path.  The warnings are sorted by
source first, so each path is written before its warnings and nowhere else.

**Results.**

* `join_warningLines`: the lines of warnings, and where headings stand among them.
* `headings_eq_dedup`: the headings of sorted warnings are their paths, each once.
* `same_of_getLast?_headingsAfter`: the last heading before a warning is its source.
* `text_lists_warnings`: the text of a report.
-/

namespace CodeSmells
namespace Report

open Std StyledPiece

section Lines

/-- Without colors the text of pieces is the texts of the pieces, one after the other. -/
theorem renderPieces_false (pieces : List StyledPiece) :
    renderPieces false pieces = String.join (pieces.map StyledPiece.text) := by
  have hrender : ∀ piece : StyledPiece, piece.render false = piece.text.toList := by
    rintro ⟨_ | style, text⟩ <;> rfl
  rw [← String.toList_inj, String.toList_join, renderPieces, String.toList_ofList,
    List.flatMap_map]
  exact List.flatMap_congr fun piece _ => hrender piece

/-- The line of a warning is its text, indented. -/
theorem join_warningLine (warning : Warning) :
    String.join ((warningLine warning).map StyledPiece.text) =
      "    " ++ warning.text ++ "\n" := by
  simp only [warningLine, plain, styled, Warning.text, List.map_cons, List.map_nil,
    String.join_cons, String.join_nil, ← String.toList_inj, String.toList_append]
  simp

/-- Warnings, each with the source of the warning before it. -/
def withBefore (before : Option Path) (warnings : List Warning) : List (Option Path × Warning) :=
  (before :: warnings.map fun warning => some warning.source).zip warnings

@[simp] theorem withBefore_nil (before : Option Path) : withBefore before [] = [] := rfl

@[simp] theorem withBefore_cons (before : Option Path) (warning : Warning)
    (warnings : List Warning) :
    withBefore before (warning :: warnings) =
      (before, warning) :: withBefore (some warning.source) warnings := rfl

/-- The source of a warning, where it is another path than the source before. -/
def heading? : Option Path × Warning → Option Path
  | (before, warning) =>
      if before.any fun path => path.same warning.source then none else some warning.source

/-- The line of a warning, with the line of its source where there is one. -/
def listed (entry : Option Path × Warning) : String :=
  ((heading? entry).elim "" fun source => "  " ++ source.text ++ "\n") ++
    ("    " ++ entry.2.text ++ "\n")

theorem heading?_eq (before : Option Path) (warning : Warning) :
    heading? (before, warning) =
      if startsGroup before warning then some warning.source else none := by
  cases before with
  | none => rfl
  | some path => cases hsame : path.same warning.source <;> simp [heading?, startsGroup, hsame]

/-- The lines of warnings are what is listed for each of them. -/
theorem join_warningLines (before : Option Path) (warnings : List Warning) :
    String.join ((warningLines before warnings).map StyledPiece.text) =
      String.join ((withBefore before warnings).map listed) := by
  induction warnings generalizing before with
  | nil => rfl
  | cons warning warnings ih =>
      rw [warningLines, List.map_append, List.map_append, String.join_append, String.join_append,
        join_warningLine, ih, withBefore_cons, List.map_cons, String.join_cons, listed,
        heading?_eq]
      cases startsGroup before warning <;> rfl

end Lines

section Headings

/-- The headings over warnings after a source. -/
def headingsAfter (before : Option Path) (warnings : List Warning) : List Path :=
  (withBefore before warnings).filterMap heading?

/-- The headings over warnings. -/
def headings (warnings : List Warning) : List Path :=
  headingsAfter none warnings

theorem headingsAfter_cons (before : Option Path) (warning : Warning) (warnings : List Warning) :
    headingsAfter before (warning :: warnings) =
      (heading? (before, warning)).toList ++ headingsAfter (some warning.source) warnings := by
  rw [headingsAfter, withBefore_cons, List.filterMap_cons]
  cases heading? (before, warning) <;> rfl

/-- Headings leave a path out where it stands already. -/
theorem parts_headingsAfter (path : Path) (warnings : List Warning) :
    path.parts :: (headingsAfter (some path) warnings).map Path.parts =
      (warnings.map fun warning => warning.source.parts).destutter' (· ≠ ·) path.parts := by
  induction warnings generalizing path with
  | nil => rfl
  | cons warning warnings ih =>
      rw [headingsAfter_cons, List.map_cons]
      by_cases hparts : path.parts = warning.source.parts
      · have hheading : heading? (some path, warning) = none := by
          simp [heading?, Path.same_iff.2 hparts]
        rw [hheading, List.destutter'_cons_neg _ (not_not.2 hparts), hparts]
        exact ih warning.source
      · have hheading : heading? (some path, warning) = some warning.source := by
          simp [heading?, Path.same_iff, hparts]
        rw [hheading, List.destutter'_cons_pos _ hparts, ← ih]
        rfl

theorem parts_headings (warnings : List Warning) :
    (headings warnings).map Path.parts =
      (warnings.map fun warning => warning.source.parts).destutter (· ≠ ·) := by
  cases warnings with
  | nil => rfl
  | cons warning warnings =>
      rw [List.map_cons, List.destutter_cons', ← parts_headingsAfter]
      rfl

/-- Warnings in order have their sources in order. -/
theorem isLE_parts {a b : Warning} (h : (Warning.order a b).isLE = true) :
    (compare a.source.parts b.source.parts).isLE = true :=
  Ordering.isLE_left_of_isLE_then h

instance : Std.Antisymm fun a b : List Path.Part => (compare a b).isLE = true where
  antisymm _ _ hab hba := LawfulEqOrd.eq_of_compare (OrientedCmp.isLE_antisymm hab hba)

/-- The headings over sorted warnings are their paths, each of them once. -/
theorem headings_eq_dedup {warnings : List Warning}
    (h : warnings.Pairwise fun a b => (Warning.order a b).isLE = true) :
    (headings warnings).map Path.parts =
      (warnings.map fun warning => warning.source.parts).dedup := by
  have hsources : (warnings.map fun warning => warning.source.parts).Pairwise
      fun a b => (compare a b).isLE = true :=
    List.pairwise_map.2 (h.imp fun hab => isLE_parts hab)
  rw [parts_headings, hsources.destutter_eq_dedup]

/-- A path that sorted warnings come from has one heading, another path has none. -/
theorem countP_headings {warnings : List Warning}
    (h : warnings.Pairwise fun a b => (Warning.order a b).isLE = true) (path : Path) :
    (headings warnings).countP path.same =
      if warnings.any fun warning => path.same warning.source then 1 else 0 := by
  have hcount : (headings warnings).countP path.same =
      ((headings warnings).map Path.parts).countP fun parts => decide (parts = path.parts) := by
    rw [List.countP_map]
    refine List.countP_congr fun other _ => ?_
    rw [Path.same_iff, Function.comp_apply, decide_eq_true_iff, eq_comm]
  have hmem : path.parts ∈ warnings.map (fun warning => warning.source.parts) ↔
      (warnings.any fun warning => path.same warning.source) = true := by
    rw [List.mem_map, List.any_eq_true]
    exact exists_congr fun warning => and_congr_right fun _ => by rw [Path.same_iff, eq_comm]
  rw [hcount, headings_eq_dedup h]
  refine (List.count_dedup _ _).trans ?_
  split_ifs with hpath hany hany
  · rfl
  · exact absurd (hmem.1 hpath) hany
  · exact absurd (hmem.2 hany) hpath
  · rfl

theorem getLast?_toList {α : Type} (x : Option α) : x.toList.getLast? = x := by
  cases x <;> rfl

/-- The heading of a warning, or else the source before it, is its path. -/
theorem same_of_heading? (before : Option Path) (warning : Warning) :
    ∃ path, (heading? (before, warning)).or before = some path ∧
      path.same warning.source = true := by
  have hself : warning.source.same warning.source = true := Path.same_iff.2 rfl
  cases before with
  | none => exact ⟨warning.source, rfl, hself⟩
  | some path =>
      cases hsame : path.same warning.source with
      | true => exact ⟨path, by simp [heading?, hsame], hsame⟩
      | false => exact ⟨warning.source, by simp [heading?, hsame], hself⟩

/-- The last heading up to a warning, or else the source before, is the path of the warning. -/
theorem same_of_getLast?_headingsAfter (before : Option Path) (warnings : List Warning)
    (warning : Warning) :
    ∃ path, (headingsAfter before (warnings ++ [warning])).getLast?.or before = some path ∧
      path.same warning.source = true := by
  induction warnings generalizing before with
  | nil =>
      obtain ⟨path, hpath, hsame⟩ := same_of_heading? before warning
      refine ⟨path, ?_, hsame⟩
      rw [← hpath, List.nil_append, headingsAfter_cons]
      cases heading? (before, warning) <;> rfl
  | cons first warnings ih =>
      obtain ⟨path, hpath, hsame⟩ := ih (some first.source)
      obtain ⟨opened, hopened, hfirst⟩ := same_of_heading? before first
      rw [List.cons_append, headingsAfter_cons, List.getLast?_append, Option.or_assoc,
        getLast?_toList, hopened]
      cases hlast : (headingsAfter (some first.source) (warnings ++ [warning])).getLast? with
      | some last =>
          rw [hlast] at hpath
          exact ⟨path, hpath, hsame⟩
      | none =>
          -- No heading follows, so all sources are the first one, spelled as where it opened.
          rw [hlast] at hpath
          obtain rfl : first.source = path := Option.some.inj hpath
          refine ⟨opened, rfl, ?_⟩
          rw [Path.same_iff] at hfirst hsame ⊢
          exact hfirst.trans hsame

end Headings

section Summary

/-- A row of the summary: a name, padded, and a count. -/
def rowText (name : String) (count : Nat) : String :=
  "    " ++ padRight 24 name ++ " " ++ toString count ++ "\n"

/-- The listing of warnings: each below its source, and an empty line. -/
def listing (warnings : List Warning) : String :=
  if warnings.isEmpty then ""
  else String.join ((withBefore none warnings).map listed) ++ "\n"

theorem text_quiet (report : Report) : report.text true false = listing report.warnings := by
  rw [text, renderPieces_false, pieces, listing]
  cases hempty : report.warnings.isEmpty with
  | true => rfl
  | false =>
      simp only [if_true, Bool.false_eq_true, if_false, List.nil_append, List.append_nil]
      rw [List.map_append, String.join_append, join_warningLines]
      rfl

theorem join_banner (report : Report) :
    String.join (report.banner.map StyledPiece.text) =
      "\n  smellguard - Code Smell Detection\n  Contexts examined: " ++
        toString report.contextsExamined ++ "\n\n" := by
  simp only [banner, plain, styled, List.map_cons, List.map_nil, String.join_cons,
    String.join_nil, String.append_empty, ← String.append_assoc, String.reduceAppend]

theorem join_summary (report : Report) :
    String.join (report.summary.map StyledPiece.text) =
      "  Summary\n" ++
        String.join (report.countsBySmellType.entries.map fun e => rowText e.1 e.2) ++
        rowText "Total" report.totalWarnings ++ "\n" := by
  have hrows : (report.countsBySmellType.entries.map fun e => summaryRow e.1 e.2).map
      StyledPiece.text = report.countsBySmellType.entries.map fun e => rowText e.1 e.2 := by
    rw [List.map_map]
    rfl
  have htotal : (summaryRow "Total" report.totalWarnings).text =
      rowText "Total" report.totalWarnings := rfl
  simp only [summary, List.map_append, String.join_append, hrows, List.map_cons, List.map_nil,
    String.join_cons, String.join_nil, htotal, plain, styled, String.append_empty,
    String.reduceAppend, String.append_assoc]

/-- With everything around it, the listing stands between the banner and the summary. -/
theorem text_loud (report : Report) :
    report.text false false =
      String.join (report.banner.map StyledPiece.text) ++
        if report.warnings.isEmpty then "  ✓ No smells found.\n\n"
        else report.text true false ++ String.join (report.summary.map StyledPiece.text) := by
  rw [text_quiet, listing, text, renderPieces_false, pieces]
  simp only [Bool.false_eq_true, if_false, List.map_append, String.join_append]
  congr 1
  cases hempty : report.warnings.isEmpty with
  | true => simp [allClear, plain, styled]
  | false =>
      simp only [Bool.false_eq_true, if_false, List.map_append, String.join_append,
        join_warningLines, String.append_assoc]
      rfl

end Summary

/--
Without colors, the text of a report is a banner, the listing and a summary, or the
listing alone if it is to be quiet.  The listing is empty without warnings.  Else it
holds the text of each warning in order, indented, after the line of its source where
the warning before comes from another path, and an empty line.  Each path has exactly
one heading, so there are as many as paths, and the last heading before a warning is
its source.  The summary has a row for each smell type, and a total that is the sum of
the rows.
-/
theorem text_lists_warnings (contextsExamined : Nat) (warnings : List Warning) :
    let report := ofWarnings contextsExamined warnings
    let counts := report.countsBySmellType
    report.warnings.Perm warnings ∧
    report.text true false =
      (if warnings = [] then ""
        else String.join ((withBefore none report.warnings).map listed) ++ "\n") ∧
    (∀ path : Path, (headings report.warnings).countP path.same =
      if warnings.any fun warning => path.same warning.source then 1 else 0) ∧
    (headings report.warnings).length =
      (warnings.map fun warning => warning.source.parts).dedup.length ∧
    (∀ front warning back, report.warnings = front ++ warning :: back →
      ∃ path, (headings (front ++ [warning])).getLast? = some path ∧
        path.same warning.source = true) ∧
    report.text false false =
      "\n  smellguard - Code Smell Detection\n  Contexts examined: " ++
        toString contextsExamined ++ "\n\n" ++
      (if warnings = [] then "  ✓ No smells found.\n\n"
        else report.text true false ++ "  Summary\n" ++
          String.join (counts.entries.map fun e => rowText e.1 e.2) ++
          rowText "Total" (counts.entries.map Prod.snd).sum ++ "\n") ∧
    counts.names.Nodup ∧
    (∀ name, name ∈ counts.names ↔ ∃ warning ∈ warnings, warning.smellType = name) := by
  intro report counts
  have hperm : report.warnings.Perm warnings := sortWarnings_perm warnings
  have hsorted : report.warnings.Pairwise fun a b => (Warning.order a b).isLE = true :=
    sortWarnings_pairwise warnings
  have hempty : report.warnings.isEmpty = true ↔ warnings = [] := by
    rw [List.isEmpty_iff, ← List.length_eq_zero_iff, hperm.length_eq, List.length_eq_zero_iff]
  have hquiet : report.text true false = if warnings = [] then ""
      else String.join ((withBefore none report.warnings).map listed) ++ "\n" := by
    rw [text_quiet, listing]
    exact if_congr hempty rfl rfl
  refine ⟨hperm, hquiet, ?_, ?_, ?_, ?_, NameMap.nodup_names counts, ?_⟩
  · intro path
    have hany : report.warnings.any (fun warning => path.same warning.source) =
        warnings.any fun warning => path.same warning.source := hperm.any_eq
    rw [countP_headings hsorted, hany]
  · have hlength := congrArg List.length (headings_eq_dedup hsorted)
    rw [List.length_map] at hlength
    rw [hlength]
    exact (hperm.map _).dedup.length_eq
  · intro front warning _ _
    obtain ⟨path, hpath, hsame⟩ := same_of_getLast?_headingsAfter none front warning
    rw [Option.or_none] at hpath
    exact ⟨path, hpath, hsame⟩
  · have htotal : report.totalWarnings = (counts.entries.map Prod.snd).sum :=
      (sum_countSmellTypes report.warnings).symm
    rw [text_loud, join_banner, join_summary, htotal, if_congr hempty rfl rfl]
    simp only [String.append_assoc]
    rfl
  · intro name
    have hmem : name ∈ counts.names ↔ name ∈ report.warnings.map Warning.smellType :=
      mem_names_countSmellTypes_iff
    rw [hmem, (hperm.map Warning.smellType).mem_iff, List.mem_map]

end Report
end CodeSmells
