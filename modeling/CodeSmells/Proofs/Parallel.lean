import CodeSmells.Proofs.BooleanParameter
import CodeSmells.Proofs.Registry

/-!
# Examining contexts at the same time

Contexts may be examined one after the other or at the same time, in any order.
All that is known of the way is that each result has the place of its context
if every context succeeds, and that the failure of one of the contexts is the
outcome if some fail.  So only the choice among several failures is left open:
what is found, and whether anything fails, is the same as one after the other.

**Results.**

* `IsTraversal`: the ways to compute the results of many items.
* `examineAllBy_eq_ok_iff`: an examination succeeds as it does one context after the other.
* `examineAllBy_flatten_eq_ok_iff`: contexts can be cut into chunks.
* `parallel_examination_keeps_order`: what an examination finds, or where it fails.
-/

namespace CodeSmells

namespace Fallible

section Ways

variable {α β ε : Type}

/-- A way to compute the results of many items, perhaps at the same time. -/
structure IsTraversal (traverse : (α → Except ε β) → List α → Except ε (List β)) : Prop where
  /-- If every item succeeds, each result has the place of its item. -/
  places : ∀ f xs ys, List.Forall₂ (fun x y => f x = .ok y) xs ys → traverse f xs = .ok ys
  /-- If some items fail, the outcome is the failure of one of them. -/
  failure : ∀ f xs, (∃ x ∈ xs, ∃ e, f x = .error e) →
    ∃ x ∈ xs, ∃ e, f x = .error e ∧ traverse f xs = .error e

/-- Items that do not all succeed fail somewhere. -/
theorem exists_forall₂_or_exists_error (f : α → Except ε β) (xs : List α) :
    (∃ ys, List.Forall₂ (fun x y => f x = .ok y) xs ys) ∨ ∃ x ∈ xs, ∃ e, f x = .error e := by
  cases hall : xs.mapM f with
  | ok ys => exact .inl ⟨ys, mapM_eq_ok_iff.1 hall⟩
  | error e =>
      obtain ⟨before, x, after, rfl, -, hx⟩ := mapM_eq_error_iff.1 hall
      exact .inr ⟨x, by simp, e, hx⟩

theorem exists_forall₂_of_forall {f : α → Except ε β} {xs : List α}
    (h : ∀ x ∈ xs, ∃ y, f x = .ok y) :
    ∃ ys, List.Forall₂ (fun x y => f x = .ok y) xs ys := by
  rcases exists_forall₂_or_exists_error f xs with hall | ⟨x, hmem, e, hx⟩
  · exact hall
  · obtain ⟨y, hy⟩ := h x hmem
    rw [hy] at hx
    cases hx

/-- One item after the other is a way. -/
theorem isTraversal_mapM :
    IsTraversal fun (f : α → Except ε β) (xs : List α) => xs.mapM f where
  places _ _ _ h := mapM_eq_ok_iff.2 h
  failure _ _ := fun ⟨_, hmem, _, hx⟩ => exists_error_of_mapM hmem hx

/-- The last item first; of several failures the last one is the outcome. -/
def backwards (f : α → Except ε β) : List α → Except ε (List β)
  | [] => .ok []
  | x :: xs =>
      match backwards f xs with
      | .error e => .error e
      | .ok ys => (f x).map (· :: ys)

theorem backwards_of_forall₂ {f : α → Except ε β} {xs : List α} {ys : List β}
    (h : List.Forall₂ (fun x y => f x = .ok y) xs ys) : backwards f xs = .ok ys := by
  induction h with
  | nil => rfl
  | cons hx _ ih => simp only [backwards, ih, hx, Except.map]

theorem exists_error_of_backwards {f : α → Except ε β} {xs : List α}
    (h : ∃ x ∈ xs, ∃ e, f x = .error e) :
    ∃ x ∈ xs, ∃ e, f x = .error e ∧ backwards f xs = .error e := by
  induction xs with
  | nil => simp at h
  | cons x xs ih =>
      rcases exists_forall₂_or_exists_error f xs with ⟨ys, hys⟩ | hrest
      · have hlater := backwards_of_forall₂ hys
        cases hx : f x with
        | error e =>
            refine ⟨x, List.mem_cons_self, e, hx, ?_⟩
            simp only [backwards, hlater, hx, Except.map]
        | ok y =>
            obtain ⟨failing, hmem, e, he⟩ := h
            obtain ⟨z, -, hz⟩ := exists_ok_of_mapM (mapM_eq_ok_iff.2 (.cons hx hys)) failing hmem
            rw [hz] at he
            cases he
      · obtain ⟨failing, hmem, e, he, hfail⟩ := ih hrest
        refine ⟨failing, List.mem_cons_of_mem x hmem, e, he, ?_⟩
        simp only [backwards, hfail]

/-- The other way round is a way, too. -/
theorem isTraversal_backwards : IsTraversal (backwards (α := α) (β := β) (ε := ε)) where
  places _ _ _ h := backwards_of_forall₂ h
  failure _ _ h := exists_error_of_backwards h

variable {traverse : (α → Except ε β) → List α → Except ε (List β)}

/-- Whatever the way, the items succeed as they do one after the other. -/
theorem IsTraversal.eq_ok_iff (h : IsTraversal traverse) {f : α → Except ε β} {xs : List α}
    {ys : List β} : traverse f xs = .ok ys ↔ xs.mapM f = .ok ys := by
  rw [mapM_eq_ok_iff]
  constructor
  · intro hok
    rcases exists_forall₂_or_exists_error f xs with ⟨zs, hzs⟩ | hsome
    · rw [h.places f xs zs hzs] at hok
      cases hok
      exact hzs
    · obtain ⟨x, -, e, -, hfail⟩ := h.failure f xs hsome
      rw [hfail] at hok
      cases hok
  · exact h.places f xs ys

end Ways

end Fallible

open Fallible

namespace Registry

section Examination

variable {traverse other : (Context → Except Failure (List Warning)) → List Context →
  Except Failure (List (List Warning))}

/-- The warnings on all contexts, or a failure, if the contexts are examined in some way. -/
def examineAllBy (traverse : (Context → Except Failure (List Warning)) → List Context →
    Except Failure (List (List Warning))) (registry : Registry) (contexts : List Context) :
    Except Failure (List Warning) :=
  (traverse registry.examine contexts).map List.flatten

/-- One context after the other is the way of a registry. -/
theorem examineAll_eq_examineAllBy (registry : Registry) :
    registry.examineAll = registry.examineAllBy fun f xs => xs.mapM f := rfl

/-- Whatever the way, an examination succeeds as it does one context after the other. -/
theorem examineAllBy_eq_ok_iff (h : IsTraversal traverse) {registry : Registry}
    {contexts : List Context} {warnings : List Warning} :
    registry.examineAllBy traverse contexts = .ok warnings ↔
      inTurn registry.examine contexts = .ok warnings := by
  rw [← flatten_mapM_eq_inTurn, examineAllBy, map_eq_ok_iff, map_eq_ok_iff]
  simp only [h.eq_ok_iff]

/-- Contexts can be cut into chunks, each of which is examined in some way. -/
theorem examineAllBy_flatten_eq_ok_iff (h : IsTraversal traverse) (hother : IsTraversal other)
    {registry : Registry} {chunks : List (List Context)} {warnings : List Warning} :
    registry.examineAllBy traverse chunks.flatten = .ok warnings ↔
      ∃ parts, List.Forall₂ (fun chunk part => registry.examineAllBy other chunk = .ok part)
        chunks parts ∧ parts.flatten = warnings := by
  simp only [examineAllBy_eq_ok_iff h, examineAllBy_eq_ok_iff hother, inTurn_flatten_eq_ok_iff]

/-- The failure of an examination is the failure of one of the contexts. -/
theorem exists_error_of_examineAllBy (h : IsTraversal traverse) {registry : Registry}
    {contexts : List Context}
    (hsome : ∃ context ∈ contexts, ∃ failure, registry.examine context = .error failure) :
    ∃ context ∈ contexts, ∃ failure, registry.examine context = .error failure ∧
      registry.examineAllBy traverse contexts = .error failure := by
  obtain ⟨context, hmem, failure, hfailure, hall⟩ := h.failure registry.examine contexts hsome
  exact ⟨context, hmem, failure, hfailure, map_eq_error_iff.2 hall⟩

/--
Contexts that are examined at the same time, whole or in chunks, give the
warnings on each context in the order of the contexts if all of them succeed,
and otherwise the failure of one of those that fail.
-/
theorem parallel_examination_keeps_order (h : IsTraversal traverse)
    (hother : IsTraversal other) (registry : Registry) (contexts : List Context) :
    registry.examineAll = registry.examineAllBy (fun f xs => xs.mapM f) ∧
    (∀ warnings, registry.examineAllBy traverse contexts = .ok warnings ↔
      inTurn registry.examine contexts = .ok warnings) ∧
    ((∀ context ∈ contexts, ∃ ws, registry.examine context = .ok ws) →
      ∃ found, List.Forall₂ (fun context ws => registry.examine context = .ok ws)
          contexts found ∧
        registry.examineAllBy traverse contexts = .ok found.flatten ∧
        ∀ chunks : List (List Context), chunks.flatten = contexts →
          ∃ parts, List.Forall₂ (fun chunk part => registry.examineAllBy other chunk = .ok part)
              chunks parts ∧
            parts.flatten = found.flatten) ∧
    ((∃ context ∈ contexts, ∃ failure, registry.examine context = .error failure) →
      ∃ context ∈ contexts, ∃ failure, registry.examine context = .error failure ∧
        registry.examineAllBy traverse contexts = .error failure) ∧
    (∀ before after warnings, before ++ after = contexts →
      (registry.examineAllBy traverse contexts = .ok warnings ↔
        ∃ first second, registry.examineAllBy other before = .ok first ∧
          registry.examineAllBy other after = .ok second ∧ first ++ second = warnings)) := by
  refine ⟨examineAll_eq_examineAllBy registry, fun warnings => examineAllBy_eq_ok_iff h, ?_,
    exists_error_of_examineAllBy h, ?_⟩
  · intro hall
    obtain ⟨found, hfound⟩ := exists_forall₂_of_forall hall
    have hok : registry.examineAllBy traverse contexts = .ok found.flatten :=
      map_eq_ok_iff.2 ⟨found, h.places _ _ _ hfound, rfl⟩
    refine ⟨found, hfound, hok, ?_⟩
    rintro chunks rfl
    exact (examineAllBy_flatten_eq_ok_iff h hother).1 hok
  · rintro before after warnings rfl
    simp only [examineAllBy_eq_ok_iff h, examineAllBy_eq_ok_iff hother, inTurn_append_eq_ok_iff]

/-- Of two methods that fail either may be reported; without them the chunks fit together. -/
theorem parallel_examination_of_three_methods :
    let method (name parameter : String) : Context :=
      (Context.bare .method name 1).withDefault parameter .true
    let registry := Registry.ofConfig [BooleanParameter.smellType] Config.default
    let failing := [method "A#a" "flag", method "B#b" "", method "C#c" ""]
    let named := [method "A#a" "flag", method "B#b" "deep", method "C#c" "wide"]
    (∃ context ∈ failing, ∃ failure, registry.examine context = .error failure ∧
      registry.examineAllBy backwards failing = .error failure) ∧
    registry.examineAllBy backwards failing ≠ registry.examineAll failing ∧
    ∃ parts, List.Forall₂ (fun chunk part => registry.examineAll chunk = .ok part)
        [[method "A#a" "flag"], [], [method "B#b" "deep", method "C#c" "wide"]] parts ∧
      registry.examineAllBy backwards named = .ok parts.flatten := by
  intro method registry failing named
  have hfailing : ∃ context ∈ failing, ∃ failure, registry.examine context = .error failure :=
    ⟨method "B#b" "", by simp [failing], BooleanParameter.unnamed (method "B#b" ""),
      by decide +kernel⟩
  have hinTurn : registry.examineAll named = .ok (named.flatMap fun context =>
      context.booleanDefaults.map (BooleanParameter.warningFor context)) := by decide +kernel
  have hnamed : ∀ context ∈ named, ∃ ws, registry.examine context = .ok ws :=
    exists_examine_of_examineAll hinTurn
  obtain ⟨-, -, -, hreported, -⟩ := parallel_examination_keeps_order isTraversal_backwards
    isTraversal_mapM registry failing
  obtain ⟨-, -, hall, -, -⟩ := parallel_examination_keeps_order isTraversal_backwards
    isTraversal_mapM registry named
  obtain ⟨found, -, hok, hchunks⟩ := hall hnamed
  obtain ⟨parts, hparts, hflatten⟩ := hchunks
    [[method "A#a" "flag"], [], [method "B#b" "deep", method "C#c" "wide"]] rfl
  refine ⟨hreported hfailing, by decide +kernel, parts, hparts, ?_⟩
  rw [hflatten]
  exact hok

end Examination

end Registry

end CodeSmells
