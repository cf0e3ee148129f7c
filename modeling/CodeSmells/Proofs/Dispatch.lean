import CodeSmells.Proofs.Registry

/-!
# Every detector has its turn

A registry asks only the detectors that are enabled and apply to the kind of a
context, and each of these then checks for itself whether it looks at the
context.  The outcome is the same as if every detector had its turn, in the
order in which they were built, up to the first failure.

**Results.**

* `attends_iff_admits`: when a detector looks at a context.
* `run_eq_error_iff`: only a detector that looks at a context fails on it.
* `examine_asks_every_detector`: examining a context is running every detector on it.
-/

namespace CodeSmells

open Fallible

namespace Detector

/-- The detector looks at the context. -/
structure Attends (detector : Detector) (context : Context) : Prop where
  enabled : detector.settings.enabled = true
  applies : context.kind ∈ detector.kinds
  /-- The context itself neither disables the detector nor excludes its own name. -/
  override : ∀ entry ∈ context.overrides.get? detector.smellType,
    entry.enabled ≠ some false ∧ context.fits entry.exclude = false
  /-- The settings do not exclude the name of the context. -/
  exclude : context.fits detector.settings.exclude = false

variable {detector : Detector} {context : Context}

theorem attends_iff_admits : detector.Attends context ↔ detector.admits context = true := by
  rw [admits_iff, Context.disables_eq_false_iff]
  constructor
  · rintro ⟨henabled, happlies, hoverride, hexclude⟩
    exact ⟨henabled, happlies, hoverride, hexclude⟩
  · rintro ⟨henabled, happlies, hoverride, hexclude⟩
    exact ⟨henabled, happlies, hoverride, hexclude⟩

theorem run_of_attends (h : detector.Attends context) :
    detector.run context = detector.sniff context :=
  run_of_admits (attends_iff_admits.1 h)

theorem run_of_not_attends (h : ¬ detector.Attends context) : detector.run context = .ok [] := by
  rw [attends_iff_admits, Bool.not_eq_true] at h
  exact run_of_not_admits h

/-- Only a detector that looks at a context fails on it. -/
theorem run_eq_error_iff {failure : Failure} :
    detector.run context = .error failure ↔
      detector.Attends context ∧ detector.sniff context = .error failure := by
  rw [attends_iff_admits]
  cases hadmits : detector.admits context with
  | true => simp [run_of_admits hadmits]
  | false => simp [run_of_not_admits hadmits]

/-- A detector does not fail unless it looks at the context. -/
theorem exists_run_eq_ok_iff :
    (∃ warnings, detector.run context = .ok warnings) ↔
      (detector.Attends context → ∃ warnings, detector.sniff context = .ok warnings) := by
  rw [attends_iff_admits]
  cases hadmits : detector.admits context with
  | true => simp [run_of_admits hadmits]
  | false => simp [run_of_not_admits hadmits]

end Detector

namespace Registry

/-- A context is examined by running the detectors in turn. -/
theorem examine_eq_inTurn (registry : Registry) (context : Context) :
    registry.examine context =
      inTurn (fun detector : Detector => detector.run context) registry.detectors := by
  rw [examine_eq_runAll, flatten_mapM_eq_inTurn]

/-- A context is examined with the detectors of the smell types in turn. -/
theorem examine_ofConfig (smellTypes : List SmellType) (config : Config) (context : Context) :
    (ofConfig smellTypes config).examine context =
      inTurn (fun smellType : SmellType =>
        (smellType.build (config.settingsFor smellType.name)).run context) smellTypes := by
  rw [examine_eq_inTurn]
  apply inTurn_eq_of_forall₂
  rw [ofConfig, List.forall₂_map_left_iff, List.forall₂_same]
  exact fun _ _ => rfl

/-- All contexts are examined in turn. -/
theorem examineAll_eq_inTurn (registry : Registry) (contexts : List Context) :
    registry.examineAll contexts = inTurn registry.examine contexts := by
  rw [examineAll, flatten_mapM_eq_inTurn]

/-- An examination succeeds with the warnings of all detectors. -/
theorem examine_eq_ok_iff {registry : Registry} {context : Context} {warnings : List Warning} :
    registry.examine context = .ok warnings ↔
      ∃ found, List.Forall₂ (fun (detector : Detector) ws => detector.run context = .ok ws)
        registry.detectors found ∧ found.flatten = warnings := by
  rw [examine_eq_runAll, map_eq_ok_iff]
  simp only [mapM_eq_ok_iff]

/-- An examination fails as the first detector that fails. -/
theorem examine_eq_error_iff {registry : Registry} {context : Context} {failure : Failure} :
    registry.examine context = .error failure ↔
      ∃ before detector after, registry.detectors = before ++ detector :: after ∧
        (∀ earlier ∈ before, ∃ ws, earlier.run context = .ok ws) ∧
        detector.run context = .error failure := by
  rw [examine_eq_runAll, map_eq_error_iff, mapM_eq_error_iff]

/--
Examining a context is running every detector on it in turn.  It succeeds when
all of them do, with their warnings in order; else it fails as the first of them
that fails, which is the first whose search fails among those that look at the
context.
-/
theorem examine_asks_every_detector (smellTypes : List SmellType) (config : Config)
    (context : Context) :
    let detectors := smellTypes.map fun smellType =>
      smellType.build (config.settingsFor smellType.name)
    let outcome := (ofConfig smellTypes config).examine context
    outcome = inTurn (fun detector : Detector => detector.run context) detectors ∧
    ((∃ warnings, outcome = .ok warnings) ↔
      ∀ detector ∈ detectors, ∃ ws, detector.run context = .ok ws) ∧
    (∀ warnings, outcome = .ok warnings ↔
      ∃ found, List.Forall₂ (fun (detector : Detector) ws => detector.run context = .ok ws)
        detectors found ∧ found.flatten = warnings) ∧
    (∀ failure, outcome = .error failure ↔
      ∃ before detector after, detectors = before ++ detector :: after ∧
        (∀ earlier ∈ before, ∃ ws, earlier.run context = .ok ws) ∧
        detector.run context = .error failure) ∧
    (∀ failure, outcome = .error failure ↔
      ∃ before detector after, detectors = before ++ detector :: after ∧
        (∀ earlier ∈ before, earlier.Attends context →
          ∃ ws, earlier.sniff context = .ok ws) ∧
        detector.Attends context ∧ detector.sniff context = .error failure) := by
  intro detectors outcome
  refine ⟨examine_eq_inTurn _ _, ?_, fun warnings => examine_eq_ok_iff,
    fun failure => examine_eq_error_iff, fun failure => ?_⟩
  · constructor
    · rintro ⟨warnings, hok⟩ detector hmem
      obtain ⟨found, hfound, -⟩ := examine_eq_ok_iff.1 hok
      obtain ⟨ws, -, hws⟩ := exists_ok_of_mapM (mapM_eq_ok_iff.2 hfound) detector hmem
      exact ⟨ws, hws⟩
    · intro hall
      cases houtcome : outcome with
      | ok warnings => exact ⟨warnings, rfl⟩
      | error failure =>
          obtain ⟨before, detector, after, hsplit, -, hfail⟩ := examine_eq_error_iff.1 houtcome
          have hmem : detector ∈ detectors := by
            have hshape : detectors = before ++ detector :: after := hsplit
            simp [hshape]
          obtain ⟨ws, hws⟩ := hall detector hmem
          rw [hws] at hfail
          cases hfail
  · simp only [← Detector.exists_run_eq_ok_iff, ← Detector.run_eq_error_iff]
    exact examine_eq_error_iff

end Registry

end CodeSmells
