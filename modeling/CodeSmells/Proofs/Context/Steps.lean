import CodeSmells.Context.Basic
import CodeSmells.Proofs.NameMap
import Mathlib.Data.List.Induction

/-!
# Building a context step by step

A context is built from its kind, name and line by steps that set its source, add
a default or put an override in place.  Each step changes one part of the context,
so it can be read off the steps what they build: the last source counts, all
defaults count, and for each name the last override counts.

**Results.**

* `source_build`, `defaultAssignments_build`, `get?_overrides_build`: the parts of a context.
* `apply_comm`, `build_of_rearranged`: steps that change different parts can be exchanged.
* `disables_build_iff`: when a context that was built disables a detector.
* `steps_build_context`: all of it.
-/

namespace CodeSmells
namespace Context

/-- A step of building a context. -/
inductive Step where
  | source (source : Path)
  | default (parameter : String) (value : Expression)
  | override (smellType : String) (entry : DetectorEntry)

namespace Step

/-- The context after a step. -/
def apply (context : Context) : Step → Context
  | source path => context.withSource path
  | default parameter value => context.withDefault parameter value
  | override smellType entry => context.withOverride smellType entry

/-- The source that a step sets. -/
def source? : Step → Option Path
  | source path => some path
  | _ => none

/-- The default that a step adds. -/
def default? : Step → Option DefaultAssignment
  | default parameter value => some ⟨parameter, value⟩
  | _ => none

/-- The override that a step puts under a name. -/
def override? (name : String) : Step → Option DetectorEntry
  | override smellType entry => if smellType = name then some entry else none
  | _ => none

/-- A part of a context that steps change; the override of each name is a part of its own. -/
inductive Part where
  | source
  | defaults
  | override (smellType : String)

/-- The part that a step changes. -/
def part : Step → Part
  | source _ => .source
  | default _ _ => .defaults
  | override smellType _ => .override smellType

/-- Steps that change different parts can be exchanged. -/
theorem apply_comm {first second : Step} (h : first.part ≠ second.part) (context : Context) :
    second.apply (first.apply context) = first.apply (second.apply context) := by
  cases first with
  | source path =>
      cases second with
      | source => exact absurd rfl h
      | default | override => rfl
  | default parameter value =>
      cases second with
      | default => exact absurd rfl h
      | source | override => rfl
  | override name entry =>
      cases second with
      | source | default => rfl
      | override other old =>
          have hne : name ≠ other := fun heq => h (congrArg Part.override heq)
          simp only [apply, withOverride]
          rw [NameMap.insert_comm hne]

/-- The same steps, some of which that change different parts have been exchanged. -/
inductive Rearranged : List Step → List Step → Prop
  | refl (steps : List Step) : Rearranged steps steps
  | exchange {first second : Step} (before after : List Step) :
      first.part ≠ second.part →
      Rearranged (before ++ first :: second :: after) (before ++ second :: first :: after)
  | trans {steps others last : List Step} :
      Rearranged steps others → Rearranged others last → Rearranged steps last

end Step

/-- The context that steps build. -/
def build (kind : Kind) (fullName : String) (line : Nat) (steps : List Step) : Context :=
  steps.foldl Step.apply (bare kind fullName line)

section Parts

variable {kind : Kind} {fullName : String} {line : Nat}

/-- One more step is applied to what the steps before it build. -/
theorem build_concat (steps : List Step) (step : Step) :
    build kind fullName line (steps ++ [step]) =
      step.apply (build kind fullName line steps) := by
  rw [build, List.foldl_concat]
  rfl

/-- No step changes the kind, the name or the line. -/
theorem identity_build (steps : List Step) :
    (build kind fullName line steps).kind = kind ∧
      (build kind fullName line steps).fullName = fullName ∧
      (build kind fullName line steps).line = line := by
  induction steps using List.reverseRecOn with
  | nil => exact ⟨rfl, rfl, rfl⟩
  | append_singleton steps step ih =>
      rw [build_concat]
      cases step <;> exact ih

/-- The last source counts. -/
theorem source_build (steps : List Step) :
    (build kind fullName line steps).source =
      (steps.filterMap Step.source?).getLast?.getD ⟨""⟩ := by
  induction steps using List.reverseRecOn with
  | nil => rfl
  | append_singleton steps step ih =>
      rw [build_concat, List.filterMap_append]
      cases step with
      | source path => simp [Step.apply, Step.source?, withSource]
      | default parameter value => simpa [Step.apply, Step.source?, withDefault] using ih
      | override name entry => simpa [Step.apply, Step.source?, withOverride] using ih

/-- All defaults count, in the order of their steps. -/
theorem defaultAssignments_build (steps : List Step) :
    (build kind fullName line steps).defaultAssignments = steps.filterMap Step.default? := by
  induction steps using List.reverseRecOn with
  | nil => rfl
  | append_singleton steps step ih =>
      rw [build_concat, List.filterMap_append]
      cases step with
      | source path => simpa [Step.apply, Step.default?, List.filterMap_cons, withSource] using ih
      | default parameter value => simp [Step.apply, Step.default?, withDefault, ih]
      | override name entry =>
          simpa [Step.apply, Step.default?, List.filterMap_cons, withOverride] using ih

/-- For each name the last override counts. -/
theorem get?_overrides_build (steps : List Step) (name : String) :
    (build kind fullName line steps).overrides.get? name =
      (steps.filterMap (Step.override? name)).getLast? := by
  induction steps using List.reverseRecOn with
  | nil => rfl
  | append_singleton steps step ih =>
      rw [build_concat, List.filterMap_append]
      cases step with
      | source path => simpa [Step.apply, Step.override?, withSource] using ih
      | default parameter value => simpa [Step.apply, Step.override?, withDefault] using ih
      | override other entry =>
          simp only [Step.apply, withOverride, NameMap.get?_insert]
          by_cases hname : other = name
          · simp [Step.override?, hname]
          · simpa [Step.override?, hname] using ih

/-- Only names that some step overrides have an override. -/
theorem mem_names_overrides_build (steps : List Step) (name : String) :
    name ∈ (build kind fullName line steps).overrides.names ↔
      ∃ entry, .override name entry ∈ steps := by
  rw [NameMap.mem_names_iff, get?_overrides_build]
  constructor
  · rintro ⟨entry, hlast⟩
    obtain ⟨step, hmem, hstep⟩ := List.mem_filterMap.1 (List.mem_of_getLast? hlast)
    cases step with
    | source | default => cases hstep
    | override other value =>
        simp only [Step.override?, Option.ite_none_right_eq_some] at hstep
        exact ⟨value, hstep.1 ▸ hmem⟩
  · rintro ⟨entry, hmem⟩
    have hfound : entry ∈ steps.filterMap (Step.override? name) :=
      List.mem_filterMap.2 ⟨_, hmem, by simp [Step.override?]⟩
    exact Option.isSome_iff_exists.1 (List.getLast?_isSome.2 (List.ne_nil_of_mem hfound))

/-- Steps that are rearranged build the same context. -/
theorem build_of_rearranged {steps others : List Step} (h : Step.Rearranged steps others) :
    build kind fullName line others = build kind fullName line steps := by
  induction h with
  | refl => rfl
  | exchange before after hne =>
      simp only [build, List.foldl_append, List.foldl_cons, Step.apply_comm hne]
  | trans _ _ ih ih' => rw [ih', ih]

/-- The last override of a detector decides whether it is disabled. -/
theorem disables_build_iff (steps : List Step) (name : String) :
    (build kind fullName line steps).disables name = true ↔
      ∃ entry, (steps.filterMap (Step.override? name)).getLast? = some entry ∧
        (entry.enabled = some false ∨ NamePattern.anyFits entry.exclude fullName = true) := by
  rw [disables, get?_overrides_build]
  cases (steps.filterMap (Step.override? name)).getLast? with
  | none => simp
  | some entry => simp [fits, (identity_build steps).2.1]

end Parts

/--
Steps build a context with the kind, name and line that were given, the source of
the last step that sets one, all defaults in the order of their steps, and for each
name the last override.  The same steps build the same context if those that
change different parts are exchanged.  Whether the context disables a detector is decided by the
last override for this detector and the name of the context.
-/
theorem steps_build_context (kind : Kind) (fullName : String) (line : Nat) (steps : List Step) :
    let context := build kind fullName line steps
    context.kind = kind ∧ context.fullName = fullName ∧ context.line = line ∧
    context.source = (steps.filterMap Step.source?).getLast?.getD ⟨""⟩ ∧
    context.defaultAssignments = steps.filterMap Step.default? ∧
    (∀ name, context.overrides.get? name = (steps.filterMap (Step.override? name)).getLast?) ∧
    (∀ name, name ∈ context.overrides.names ↔ ∃ entry, .override name entry ∈ steps) ∧
    (∀ others, Step.Rearranged steps others → build kind fullName line others = context) ∧
    ∀ name, context.disables name = true ↔
      ∃ entry, (steps.filterMap (Step.override? name)).getLast? = some entry ∧
        (entry.enabled = some false ∨ NamePattern.anyFits entry.exclude fullName = true) := by
  intro context
  obtain ⟨hkind, hname, hline⟩ : context.kind = kind ∧ context.fullName = fullName ∧
      context.line = line := identity_build steps
  exact ⟨hkind, hname, hline, source_build steps, defaultAssignments_build steps,
    get?_overrides_build steps, mem_names_overrides_build steps,
    fun _ h => build_of_rearranged h, disables_build_iff steps⟩

/-- A detector is switched on again by a later step, and off by a step that is moved about. -/
theorem steps_of_one_method :
    let off : DetectorEntry := ⟨some false, []⟩
    let elsewhere : DetectorEntry := ⟨some true, ["Legacy::*"]⟩
    let steps : List Step :=
      [.override "BooleanParameter" off, .default "force" .true, .source ⟨"lib/cli.rb"⟩,
        .override "LongMethod" off, .override "BooleanParameter" elsewhere]
    let others : List Step :=
      [.default "force" .true, .override "BooleanParameter" off, .source ⟨"lib/cli.rb"⟩,
        .override "BooleanParameter" elsewhere, .override "LongMethod" off]
    Step.Rearranged steps others ∧
    build .method "Cli#run" 3 others = build .method "Cli#run" 3 steps ∧
    (build .method "Cli#run" 3 others).disables "BooleanParameter" = false ∧
    (build .method "Cli#run" 3 others).disables "LongMethod" = true := by
  intro off elsewhere steps others
  have hrearranged : Step.Rearranged steps others := by
    refine .trans (.exchange [] _ (by simp [Step.part])) ?_
    exact .exchange [.default "force" .true, .override "BooleanParameter" off,
      .source ⟨"lib/cli.rb"⟩] [] (by simp [Step.part])
  obtain ⟨-, -, -, -, -, -, -, hsame, hdisables⟩ := steps_build_context .method "Cli#run" 3 steps
  have hbuilt := hsame others hrearranged
  refine ⟨hrearranged, hbuilt, ?_, ?_⟩
  · rw [hbuilt, ← Bool.not_eq_true, hdisables]
    rintro ⟨entry, hlast, hentry⟩
    obtain rfl : elsewhere = entry := Option.some.inj hlast
    revert hentry
    decide +kernel
  · rw [hbuilt, hdisables]
    exact ⟨off, rfl, .inl rfl⟩

end Context
end CodeSmells
