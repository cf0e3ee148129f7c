import Mathlib.Data.List.Forall2

/-!
# Computations that may fail

Steps in a row succeed when each of them does.  `List.mapM` takes the items of a
list in turn and stops at the first failure.

**Results.**

* `bind_eq_ok_iff`, `map_eq_ok_iff`: when two steps in a row succeed.
* `mapM_eq_ok_iff`: a traversal succeeds exactly when every item does.
* `mapM_eq_error_iff`: a traversal fails exactly as the first item that fails.
* `flatten_mapM_sublist`: fewer items that find no more find no more in all.
* `flatten_mapM_eq_inTurn`: lists are joined as they are found, up to the first failure.
* `inTurn_filter`: items that are left out count as items that contribute nothing.
* `inTurn_eq_of_forall₂`, `inTurn_eq_ok_filter`, `inTurn_eq_map_filter`: items that give the
  same, or a part of it.
* `inTurn_flatten_eq_ok_iff`: a list that is cut into chunks succeeds when every chunk does.
-/

namespace CodeSmells
namespace Fallible

variable {α β ε : Type}

section Steps

theorem ok_bind (a : α) (f : α → Except ε β) : (.ok a >>= f) = f a :=
  rfl

theorem bind_eq_ok_iff {x : Except ε α} {f : α → Except ε β} {b : β} :
    (x >>= f) = .ok b ↔ ∃ a, x = .ok a ∧ f a = .ok b := by
  cases x with
  | error e => simp [bind, Except.bind]
  | ok a => simp [bind, Except.bind]

theorem map_eq_ok_iff {x : Except ε α} {f : α → β} {b : β} :
    x.map f = .ok b ↔ ∃ a, x = .ok a ∧ f a = b := by
  cases x <;> simp [Except.map]

theorem map_eq_error_iff {x : Except ε α} {f : α → β} {e : ε} :
    x.map f = .error e ↔ x = .error e := by
  cases x <;> simp [Except.map]

theorem mapError_eq_error_iff {ε' : Type} {x : Except ε α} {f : ε → ε'} {e' : ε'} :
    x.mapError f = .error e' ↔ ∃ e, x = .error e ∧ e' = f e := by
  cases x <;> simp [Except.mapError, eq_comm]

theorem toOption_eq_some_iff {x : Except ε α} {a : α} : x.toOption = some a ↔ x = .ok a := by
  cases x <;> simp [Except.toOption]

theorem toOption_bind (x : Except ε α) (f : α → Except ε β) :
    (x >>= f).toOption = x.toOption.bind fun a => (f a).toOption := by
  cases x <;> rfl

theorem toOption_map (x : Except ε α) (f : α → β) :
    (x.map f).toOption = x.toOption.map f := by
  cases x <;> rfl

theorem toOption_eq_of_iff {x y : Except ε α} (h : ∀ a, x = .ok a ↔ y = .ok a) :
    x.toOption = y.toOption := by
  cases y with
  | ok b => rw [(h b).2 rfl]
  | error e =>
      cases x with
      | ok a => cases (h a).1 rfl
      | error e' => rfl

end Steps

section Traversals

variable {f : α → Except ε β}

theorem mapM_cons_ok {x : α} {xs : List α} {y : β} (hx : f x = .ok y) :
    (x :: xs).mapM f = (xs.mapM f).map (y :: ·) := by
  rw [List.mapM_cons, hx]
  cases xs.mapM f <;> rfl

theorem mapM_cons_error {x : α} {xs : List α} {e : ε} (hx : f x = .error e) :
    (x :: xs).mapM f = .error e := by
  rw [List.mapM_cons, hx]
  rfl

/-- A traversal succeeds exactly when every item does. -/
theorem mapM_eq_ok_iff {xs : List α} {ys : List β} :
    xs.mapM f = .ok ys ↔ List.Forall₂ (fun x y => f x = .ok y) xs ys := by
  induction xs generalizing ys with
  | nil => cases ys <;> simp [pure, Except.pure]
  | cons x xs ih =>
      cases hx : f x with
      | error e =>
          rw [mapM_cons_error hx]
          constructor
          · intro h
            cases h
          · rintro (_ | ⟨hy, _⟩)
            rw [hx] at hy
            cases hy
      | ok y =>
          rw [mapM_cons_ok hx, map_eq_ok_iff]
          constructor
          · rintro ⟨rest, hrest, rfl⟩
            exact .cons hx (ih.1 hrest)
          · rintro (_ | ⟨hy, hrest⟩)
            rw [hx] at hy
            cases hy
            exact ⟨_, ih.2 hrest, rfl⟩

theorem toOption_mapM (f : α → Except ε β) (xs : List α) :
    (xs.mapM f).toOption = xs.mapM fun x => (f x).toOption := by
  induction xs with
  | nil => rfl
  | cons x xs ih =>
      rw [List.mapM_cons, List.mapM_cons, ← ih, toOption_bind]
      refine Option.bind_congr fun y _ => ?_
      rw [toOption_bind]
      rfl

/-- A traversal fails exactly as the first item that fails. -/
theorem mapM_eq_error_iff {xs : List α} {e : ε} :
    xs.mapM f = .error e ↔
      ∃ before x after, xs = before ++ x :: after ∧
        (∀ b ∈ before, ∃ y, f b = .ok y) ∧ f x = .error e := by
  induction xs with
  | nil => simp [pure, Except.pure]
  | cons x xs ih =>
      cases hx : f x with
      | error e' =>
          rw [mapM_cons_error hx]
          constructor
          · intro h
            cases h
            exact ⟨[], x, xs, rfl, by simp, hx⟩
          · rintro ⟨before, z, after, hsplit, hbefore, hz⟩
            cases before with
            | nil =>
                obtain ⟨rfl, rfl⟩ := List.cons.inj hsplit
                rw [hx] at hz
                cases hz
                rfl
            | cons b before =>
                obtain ⟨rfl, rfl⟩ := List.cons.inj hsplit
                obtain ⟨y, hy⟩ := hbefore x List.mem_cons_self
                rw [hx] at hy
                cases hy
      | ok y =>
          rw [mapM_cons_ok hx, map_eq_error_iff, ih]
          constructor
          · rintro ⟨before, z, after, rfl, hbefore, hz⟩
            exact ⟨x :: before, z, after, rfl, by simpa [hx] using hbefore, hz⟩
          · rintro ⟨before, z, after, hsplit, hbefore, hz⟩
            cases before with
            | nil =>
                obtain ⟨rfl, rfl⟩ := List.cons.inj hsplit
                rw [hx] at hz
                cases hz
            | cons b before =>
                obtain ⟨rfl, rfl⟩ := List.cons.inj hsplit
                exact ⟨before, z, after, rfl,
                  fun c hc => hbefore c (List.mem_cons_of_mem _ hc), hz⟩

/-- Each item of a traversal that succeeds gives one of the results. -/
theorem exists_ok_of_mapM {xs : List α} {ys : List β} (h : xs.mapM f = .ok ys) :
    ∀ x ∈ xs, ∃ y ∈ ys, f x = .ok y := by
  rw [mapM_eq_ok_iff] at h
  induction h with
  | nil => simp
  | cons hx _ ih =>
      intro x hmem
      rcases List.mem_cons.1 hmem with rfl | hmem
      · exact ⟨_, List.mem_cons_self, hx⟩
      · obtain ⟨y, hy, hfx⟩ := ih x hmem
        exact ⟨y, List.mem_cons_of_mem _ hy, hfx⟩

/-- A traversal fails if any item does, though not always as that item. -/
theorem exists_error_of_mapM {x : α} {xs : List α} {e : ε} (hmem : x ∈ xs)
    (hx : f x = .error e) :
    ∃ first ∈ xs, ∃ e', f first = .error e' ∧ xs.mapM f = .error e' := by
  cases hall : xs.mapM f with
  | ok ys =>
      obtain ⟨y, -, hy⟩ := exists_ok_of_mapM hall x hmem
      rw [hx] at hy
      cases hy
  | error e' =>
      obtain ⟨before, first, after, rfl, -, hfirst⟩ := mapM_eq_error_iff.1 hall
      exact ⟨first, by simp, e', hfirst, rfl⟩

/-- A traversal whose items all succeed is a map. -/
theorem mapM_eq_ok_map {g : α → β} {xs : List α} (h : ∀ x ∈ xs, f x = .ok (g x)) :
    xs.mapM f = .ok (xs.map g) := by
  rw [mapM_eq_ok_iff, List.forall₂_map_right_iff, List.forall₂_same]
  exact h

end Traversals

section Concatenation

variable {f : α → Except ε (List β)}

/-- Items that contribute nothing may be left out of a traversal. -/
theorem flatten_mapM_filter {p : α → Bool} (h : ∀ x, p x = false → f x = .ok []) :
    ∀ xs : List α,
      ((xs.filter p).mapM f).map List.flatten = (xs.mapM f).map List.flatten
  | [] => rfl
  | x :: xs => by
      have ih := flatten_mapM_filter h xs
      cases hp : p x with
      | false =>
          rw [List.filter_cons_of_neg (by simp [hp]), ih, mapM_cons_ok (h x hp)]
          cases xs.mapM f <;> rfl
      | true =>
          rw [List.filter_cons_of_pos hp]
          cases hx : f x with
          | error e => rw [mapM_cons_error hx, mapM_cons_error hx]
          | ok ys =>
              rw [mapM_cons_ok hx, mapM_cons_ok hx]
              revert ih
              cases (xs.filter p).mapM f <;> cases xs.mapM f <;> simp [Except.map]

/--
If fewer items are traversed, each of which still succeeds where it did and finds
no more than it did, then the traversal still succeeds and finds no more.
-/
theorem flatten_mapM_sublist {g : α → Except ε (List β)} {fewer xs : List α}
    (hsub : fewer.Sublist xs)
    (h : ∀ x ∈ xs, ∀ ys, f x = .ok ys → ∃ zs, g x = .ok zs ∧ zs.Sublist ys)
    {all : List β} (hall : (xs.mapM f).map List.flatten = .ok all) :
    ∃ found, (fewer.mapM g).map List.flatten = .ok found ∧ found.Sublist all := by
  obtain ⟨lists, hlists, rfl⟩ := map_eq_ok_iff.1 hall
  rw [mapM_eq_ok_iff] at hlists
  suffices hfewer : ∃ less, fewer.mapM g = .ok less ∧ less.flatten.Sublist lists.flatten by
    obtain ⟨less, hless, hflatten⟩ := hfewer
    exact ⟨less.flatten, map_eq_ok_iff.2 ⟨less, hless, rfl⟩, hflatten⟩
  clear hall
  induction hsub generalizing lists with
  | slnil =>
      cases hlists
      exact ⟨[], rfl, List.Sublist.refl _⟩
  | cons x _ ih =>
      cases hlists with
      | @cons _ ys _ rest _ hrest =>
          have htail := fun x hx => h x (List.mem_cons_of_mem _ hx)
          obtain ⟨less, hless, hflatten⟩ := ih htail rest hrest
          exact ⟨less, hless, hflatten.trans (List.sublist_append_right ys rest.flatten)⟩
  | cons_cons x _ ih =>
      cases hlists with
      | @cons _ ys _ rest hx hrest =>
          have htail := fun x hx => h x (List.mem_cons_of_mem _ hx)
          obtain ⟨less, hless, hflatten⟩ := ih htail rest hrest
          obtain ⟨zs, hzs, hsublist⟩ := h x List.mem_cons_self ys hx
          refine ⟨zs :: less, ?_, hsublist.append hflatten⟩
          rw [mapM_cons_ok hzs, hless]
          rfl

/-- The lists of the items one after the other, up to the first failure. -/
def inTurn (f : α → Except ε (List β)) : List α → Except ε (List β)
  | [] => .ok []
  | x :: xs =>
      match f x with
      | .error e => .error e
      | .ok ys => (inTurn f xs).map (ys ++ ·)

/-- Joining the lists of a traversal in the end is joining them as they are found. -/
theorem flatten_mapM_eq_inTurn (f : α → Except ε (List β)) (xs : List α) :
    (xs.mapM f).map List.flatten = inTurn f xs := by
  induction xs with
  | nil => rfl
  | cons x xs ih =>
      rw [inTurn, ← ih]
      cases hx : f x with
      | error e =>
          rw [mapM_cons_error hx]
          rfl
      | ok ys =>
          rw [mapM_cons_ok hx]
          cases xs.mapM f <;> rfl

/-- A list that starts with an item succeeds exactly when the item and the others do. -/
theorem inTurn_cons_eq_ok_iff {x : α} {xs : List α} {all : List β} :
    inTurn f (x :: xs) = .ok all ↔
      ∃ ys zs, f x = .ok ys ∧ inTurn f xs = .ok zs ∧ ys ++ zs = all := by
  rw [inTurn]
  cases hx : f x with
  | error e => simp
  | ok ys => simp [map_eq_ok_iff]

/-- Items that give the same one by one give the same in turn. -/
theorem inTurn_eq_of_forall₂ {γ : Type} {g : γ → Except ε (List β)} {xs : List α} {zs : List γ}
    (h : List.Forall₂ (fun x z => f x = g z) xs zs) : inTurn f xs = inTurn g zs := by
  induction h with
  | nil => rfl
  | cons hx _ ih => rw [inTurn, inTurn, hx, ih]

/-- Items that are left out count as items that contribute nothing. -/
theorem inTurn_filter (p : α → Bool) (xs : List α) :
    inTurn f (xs.filter p) = inTurn (fun x => if p x then f x else .ok []) xs := by
  induction xs with
  | nil => rfl
  | cons x xs ih =>
      cases hp : p x with
      | false =>
          rw [List.filter_cons_of_neg (by simp [hp]), ih, inTurn]
          simp only [hp, Bool.false_eq_true, if_false, List.nil_append]
          cases inTurn (fun x => if p x then f x else .ok []) xs <;> rfl
      | true =>
          rw [List.filter_cons_of_pos hp, inTurn, inTurn, ih]
          simp only [hp, if_true]

/-- Items that still succeed, with a part of what they gave, give this part of the whole. -/
theorem inTurn_eq_ok_filter {g : α → Except ε (List β)} {q : β → Bool} {xs : List α}
    (h : ∀ x ∈ xs, ∀ ys, f x = .ok ys → g x = .ok (ys.filter q)) {all : List β}
    (hall : inTurn f xs = .ok all) : inTurn g xs = .ok (all.filter q) := by
  induction xs generalizing all with
  | nil =>
      cases hall
      rfl
  | cons x xs ih =>
      obtain ⟨ys, rest, hys, hrest, rfl⟩ := inTurn_cons_eq_ok_iff.1 hall
      have hlater := ih (fun z hz => h z (List.mem_cons_of_mem x hz)) hrest
      rw [List.filter_append]
      exact inTurn_cons_eq_ok_iff.2 ⟨_, _, h x List.mem_cons_self ys hys, hlater, rfl⟩

/-- Items that give a part of what they gave, and fail as they did, do so in turn. -/
theorem inTurn_eq_map_filter {g : α → Except ε (List β)} {q : β → Bool} {xs : List α}
    (h : ∀ x ∈ xs, g x = (f x).map (List.filter q)) :
    inTurn g xs = (inTurn f xs).map (List.filter q) := by
  induction xs with
  | nil => rfl
  | cons x xs ih =>
      have hlater := ih fun z hz => h z (List.mem_cons_of_mem x hz)
      rw [inTurn, inTurn, h x List.mem_cons_self, hlater]
      cases f x with
      | error e => rfl
      | ok ys =>
          cases inTurn f xs with
          | error e => rfl
          | ok zs => simp [Except.map]

/-- Two lists one after the other succeed exactly when each of them does. -/
theorem inTurn_append_eq_ok_iff {xs others : List α} {all : List β} :
    inTurn f (xs ++ others) = .ok all ↔
      ∃ ys zs, inTurn f xs = .ok ys ∧ inTurn f others = .ok zs ∧ ys ++ zs = all := by
  induction xs generalizing all with
  | nil => simp [inTurn]
  | cons x xs ih =>
      rw [List.cons_append, inTurn_cons_eq_ok_iff]
      constructor
      · rintro ⟨first, rest, hfirst, hrest, rfl⟩
        obtain ⟨ys, zs, hys, hzs, rfl⟩ := ih.1 hrest
        exact ⟨first ++ ys, zs, inTurn_cons_eq_ok_iff.2 ⟨first, ys, hfirst, hys, rfl⟩, hzs,
          List.append_assoc first ys zs⟩
      · rintro ⟨start, zs, hstart, hzs, rfl⟩
        obtain ⟨first, ys, hfirst, hys, rfl⟩ := inTurn_cons_eq_ok_iff.1 hstart
        exact ⟨first, ys ++ zs, hfirst, ih.2 ⟨ys, zs, hys, hzs, rfl⟩,
          (List.append_assoc first ys zs).symm⟩

/-- Many lists one after the other succeed exactly when each of them does. -/
theorem inTurn_flatten_eq_ok_iff {chunks : List (List α)} {all : List β} :
    inTurn f chunks.flatten = .ok all ↔
      ∃ parts, List.Forall₂ (fun chunk part => inTurn f chunk = .ok part) chunks parts ∧
        parts.flatten = all := by
  induction chunks generalizing all with
  | nil => simp [inTurn]
  | cons chunk chunks ih =>
      rw [List.flatten_cons, inTurn_append_eq_ok_iff]
      constructor
      · rintro ⟨part, rest, hpart, hrest, rfl⟩
        obtain ⟨parts, hparts, rfl⟩ := ih.1 hrest
        exact ⟨part :: parts, .cons hpart hparts, List.flatten_cons⟩
      · rintro ⟨_, hparts, rfl⟩
        cases hparts with
        | @cons _ part _ parts hpart hrest =>
            exact ⟨part, parts.flatten, hpart, ih.2 ⟨parts, hrest, rfl⟩, List.flatten_cons.symm⟩

theorem flatten_mapM_singleton (x : α) : ([x].mapM f).map List.flatten = f x := by
  cases hx : f x with
  | error e => rw [mapM_cons_error hx]; rfl
  | ok ys =>
      rw [mapM_cons_ok hx]
      simp [Except.map, pure, Except.pure]

end Concatenation

end Fallible
end CodeSmells
