import CodeSmells.Detector.Registry
import CodeSmells.Proofs.Fallible
import CodeSmells.Proofs.Gates

/-!
# Examining with registries

A registry passes over the detectors that are disabled or do not apply to the
kind of a context.  Those would find nothing anyway, so a context is examined as
if every detector ran on it.

**Results.**

* `examine_eq_runAll`: no warning and no failure is lost by passing over detectors.
* `examineAll_eq_ok_iff`: all contexts are examined exactly when each of them is.
* `examineAll_perm`: contexts in another order give the same warnings in another order.
-/

namespace CodeSmells

open Fallible

namespace Registry

variable {registry : Registry} {context : Context}

/-- A context is examined as if every detector ran on it. -/
theorem examine_eq_runAll (registry : Registry) (context : Context) :
    registry.examine context =
      (registry.detectors.mapM fun (detector : Detector) => detector.run context).map
        List.flatten :=
  flatten_mapM_filter
    (fun _ h => Detector.run_of_not_admits (Detector.admits_eq_false_of_passedOver h)) _

theorem examine_singleton (detector : Detector) (context : Context) :
    Registry.examine ⟨[detector]⟩ context = detector.run context := by
  rw [examine_eq_runAll, flatten_mapM_singleton]

theorem examine_nil (context : Context) : Registry.examine ⟨[]⟩ context = .ok [] := rfl

/-- All contexts are examined exactly when each of them is. -/
theorem examineAll_eq_ok_iff {contexts : List Context} {warnings : List Warning} :
    registry.examineAll contexts = .ok warnings ↔
      ∃ found, List.Forall₂ (fun context ws => registry.examine context = .ok ws)
        contexts found ∧ found.flatten = warnings := by
  rw [examineAll, map_eq_ok_iff]
  simp only [mapM_eq_ok_iff]

/-- The failure of an examination is the failure of the first context that fails. -/
theorem examineAll_eq_error_iff {contexts : List Context} {failure : Failure} :
    registry.examineAll contexts = .error failure ↔
      ∃ before context after, contexts = before ++ context :: after ∧
        (∀ b ∈ before, ∃ ws, registry.examine b = .ok ws) ∧
        registry.examine context = .error failure := by
  rw [examineAll, map_eq_error_iff, mapM_eq_error_iff]

/-- One context that fails is enough for the examination to fail. -/
theorem exists_error_of_examineAll {contexts : List Context} {failure : Failure}
    (hmem : context ∈ contexts) (h : registry.examine context = .error failure) :
    ∃ first ∈ contexts, ∃ failure', registry.examine first = .error failure' ∧
      registry.examineAll contexts = .error failure' := by
  obtain ⟨first, hfirst, failure', hfail, hall⟩ := exists_error_of_mapM hmem h
  exact ⟨first, hfirst, failure', hfail, map_eq_error_iff.2 hall⟩

theorem examineAll_eq_ok_flatMap {contexts : List Context} {found : Context → List Warning}
    (h : ∀ context ∈ contexts, registry.examine context = .ok (found context)) :
    registry.examineAll contexts = .ok (contexts.flatMap found) := by
  rw [examineAll, mapM_eq_ok_map h]
  simp [Except.map, List.flatMap]

theorem exists_examine_of_examineAll {contexts : List Context} {warnings : List Warning}
    (h : registry.examineAll contexts = .ok warnings) :
    ∀ context ∈ contexts, ∃ ws, registry.examine context = .ok ws := by
  obtain ⟨lists, hlists, -⟩ := map_eq_ok_iff.1 h
  intro context hmem
  obtain ⟨ws, -, hws⟩ := exists_ok_of_mapM hlists context hmem
  exact ⟨ws, hws⟩

/-- Contexts in another order give the same warnings in another order. -/
theorem examineAll_perm {contexts others : List Context} {warnings : List Warning}
    (hperm : contexts.Perm others) (h : registry.examineAll contexts = .ok warnings) :
    ∃ found, registry.examineAll others = .ok found ∧ warnings.Perm found := by
  let found (context : Context) : List Warning :=
    (registry.examine context).toOption.getD []
  have hfound : ∀ context ∈ contexts, registry.examine context = .ok (found context) := by
    intro context hmem
    obtain ⟨ws, hws⟩ := exists_examine_of_examineAll h context hmem
    simp [found, hws, Except.toOption]
  have hothers : registry.examineAll others = .ok (others.flatMap found) :=
    examineAll_eq_ok_flatMap fun context hmem => hfound context (hperm.mem_iff.2 hmem)
  rw [examineAll_eq_ok_flatMap hfound] at h
  cases h
  exact ⟨_, hothers, hperm.flatMap_right found⟩

end Registry

end CodeSmells
