import CodeSmells.Config.Basic
import CodeSmells.Detector.Basic

/-!
# When a detector looks at a context

**Results.**

* `settingsFor_enabled_iff`, `fits_settingsFor_eq_false_iff`: what the settings of a
  detector say in terms of the entry in the configuration.
* `disables_eq_false_iff`: when a context leaves a detector alone.
* `admits_iff`: the four gates of a detector.
-/

namespace CodeSmells

section Entries

/-- Only an entry that says so disables a detector. -/
theorem Config.settingsFor_enabled_iff {config : Config} {name : String} :
    (config.settingsFor name).enabled = true ↔
      ∀ entry ∈ config.detectors.get? name, entry.enabled ≠ some false := by
  rw [settingsFor]
  cases config.detectors.get? name with
  | none => simp [DetectorSettings.default]
  | some entry =>
      rcases henabled : entry.enabled with _ | _ | _ <;>
        simp [DetectorSettings.ofEntry, henabled]

/-- A context that fits no pattern of the entry is not excluded. -/
theorem Config.fits_settingsFor_eq_false_iff {config : Config} {name : String}
    {context : Context} :
    context.fits (config.settingsFor name).exclude = false ↔
      ∀ entry ∈ config.detectors.get? name, context.fits entry.exclude = false := by
  rw [settingsFor]
  cases config.detectors.get? name with
  | none => simp [DetectorSettings.default, Context.fits, NamePattern.anyFits]
  | some entry => simp [DetectorSettings.ofEntry]

/-- A context leaves a detector alone unless its own entry disables or excludes it. -/
theorem Context.disables_eq_false_iff {context : Context} {name : String} :
    context.disables name = false ↔
      ∀ entry ∈ context.overrides.get? name,
        entry.enabled ≠ some false ∧ context.fits entry.exclude = false := by
  rw [disables]
  cases context.overrides.get? name with
  | none => simp
  | some entry => simp [Bool.or_eq_false_iff]

end Entries

namespace Detector

variable {detector : Detector} {context : Context}

/-- The four gates of a detector. -/
theorem admits_iff :
    detector.admits context = true ↔
      detector.enabled = true ∧ context.kind ∈ detector.kinds ∧
        context.disables detector.smellType = false ∧
        context.fits detector.settings.exclude = false := by
  simp [admits, appliesTo, and_assoc]

theorem run_of_admits (h : detector.admits context = true) :
    detector.run context = detector.sniff context := by
  rw [run, if_pos h]

theorem run_of_not_admits (h : detector.admits context = false) :
    detector.run context = .ok [] := by
  rw [run, h]
  rfl

/-- A detector that a registry passes over does not look at the context. -/
theorem admits_eq_false_of_passedOver
    (h : (detector.enabled && detector.appliesTo context.kind) = false) :
    detector.admits context = false := by
  rw [admits, h]
  rfl

end Detector

end CodeSmells
