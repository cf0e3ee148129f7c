import CodeSmells.Proofs.WarningOrder

/-!
# Warnings are ordered by their places

A warning stands at a place: its source, its smallest line, its smell type and
its context.  A warning at an earlier place comes before one at a later place,
whatever their messages, further lines and details are; only at the same place
do these decide.

**Results.**

* `compareLex_eq_lt_of_lex`: a list that is earlier item by item compares as earlier.
* `compare_min_eq_lt`: lists of lines compare by their smallest lines, empty ones first.
* `order_eq_lt_of_precedes`: an earlier place decides.
* `order_is_lawful`: the order is total, agrees with equality and follows the places.
-/

namespace CodeSmells

open Std

section Comparisons

variable {α β : Type}

theorem compareLex_eq_lt_iff {first second : α → α → Ordering} {a b : α} :
    compareLex first second a b = .lt ↔
      first a b = .lt ∨ first a b = .eq ∧ second a b = .lt :=
  Ordering.then_eq_lt

/-- Lists compare as they do in the first place where they differ. -/
theorem compareLex_eq_lt_of_lex {compare : α → α → Ordering} [ReflCmp compare]
    {earlier : α → α → Prop} (hearlier : ∀ a b, earlier a b → compare a b = .lt)
    {as bs : List α} (h : List.Lex earlier as bs) : List.compareLex compare as bs = .lt := by
  induction h with
  | nil => rfl
  | rel hab =>
      rw [List.compareLex_cons_cons, hearlier _ _ hab]
      rfl
  | @cons a as bs _ ih =>
      have hself : compare a a = .eq := ReflCmp.compare_self
      rw [List.compareLex_cons_cons, hself]
      exact ih

/-- The first place where lists differ is the one that makes them compare as they do. -/
theorem lex_of_compareLex_eq_lt {compare : α → α → Ordering} [LawfulEqCmp compare]
    {earlier : α → α → Prop} (hearlier : ∀ a b, compare a b = .lt → earlier a b)
    {as bs : List α} (h : List.compareLex compare as bs = .lt) : List.Lex earlier as bs := by
  induction as generalizing bs with
  | nil =>
      cases bs with
      | nil => cases h
      | cons b bs => exact .nil
  | cons a as ih =>
      cases bs with
      | nil => cases h
      | cons b bs =>
          rw [List.compareLex_cons_cons, Ordering.then_eq_lt] at h
          rcases h with hfirst | ⟨hsame, hrest⟩
          · exact .rel (hearlier a b hfirst)
          · rw [LawfulEqCmp.eq_of_compare hsame]
            exact .cons (ih hrest)

theorem compare_string_eq_lt {a b : String} (h : a < b) : compare a b = .lt :=
  if_pos h

theorem lt_of_compare_string {a b : String} (h : compare a b = .lt) : a < b := by
  by_contra hlt
  rw [show compare a b = if a = b then .eq else .gt from if_neg hlt] at h
  split at h <;> cases h

end Comparisons

namespace Path

/-- The first part is of an earlier rank, or is an earlier name. -/
def Part.Before (a b : Part) : Prop :=
  a.key.1 < b.key.1 ∨ a.key.1 = b.key.1 ∧ a.key.2 < b.key.2

/-- The first path is earlier in the first part where they differ, or ends before that. -/
def Before (a b : Path) : Prop :=
  List.Lex Part.Before a.parts b.parts

theorem Part.compare_eq_lt {a b : Part} (h : a.Before b) : compare a b = .lt := by
  rw [Part.compare_eq, compareLex_eq_lt_iff]
  rcases h with hrank | ⟨hrank, hname⟩
  · exact .inl (Nat.compare_eq_lt.2 hrank)
  · exact .inr ⟨Nat.compare_eq_eq.2 hrank, compare_string_eq_lt hname⟩

theorem compare_parts_eq_lt {a b : Path} (h : a.Before b) : compare a.parts b.parts = .lt :=
  compareLex_eq_lt_of_lex (fun _ _ => Part.compare_eq_lt) h

theorem Part.before_of_compare {a b : Part} (h : compare a b = .lt) : a.Before b := by
  rw [Part.compare_eq, compareLex_eq_lt_iff] at h
  rcases h with hrank | ⟨hrank, hname⟩
  · exact .inl (Nat.compare_eq_lt.1 hrank)
  · exact .inr ⟨Nat.compare_eq_eq.1 hrank, lt_of_compare_string hname⟩

theorem before_of_order {a b : Path} (h : order a b = .lt) : a.Before b :=
  lex_of_compareLex_eq_lt (fun _ _ => Part.before_of_compare) h

end Path

namespace Warning

section Places

/-- The smallest of the first lines is below all of the second ones; no lines come first. -/
def LinesBefore (as bs : List Nat) : Prop :=
  bs ≠ [] ∧ (as = [] ∨ ∃ a ∈ as, ∀ b ∈ bs, a < b)

/-- The place of the first warning is the earlier one. -/
inductive Precedes (a b : Warning) : Prop
  | source : a.source.Before b.source → Precedes a b
  | firstLine : a.source.same b.source = true → LinesBefore a.lines b.lines → Precedes a b
  | smellType : a.source.same b.source = true → a.firstLine? = b.firstLine? →
      a.smellType < b.smellType → Precedes a b
  | context : a.source.same b.source = true → a.firstLine? = b.firstLine? →
      a.smellType = b.smellType → a.context < b.context → Precedes a b

/-- Lists of lines compare by their smallest lines, empty ones first. -/
theorem compare_min_eq_lt {as bs : List Nat} (h : LinesBefore as bs) :
    compare as.min? bs.min? = .lt := by
  obtain ⟨hbs, has⟩ := h
  obtain ⟨m, hm⟩ : ∃ m, bs.min? = some m := by
    cases hmin : bs.min? with
    | none => exact absurd (List.min?_eq_none_iff.1 hmin) hbs
    | some m => exact ⟨m, rfl⟩
  have hmem : m ∈ bs := (List.min?_eq_some_iff.1 hm).1
  rcases has with rfl | ⟨a, ha, hbelow⟩
  · rw [hm]
    rfl
  · cases hmin : as.min? with
    | none =>
        rw [List.min?_eq_none_iff.1 hmin] at ha
        cases ha
    | some n =>
        have hn : n ≤ a := (List.min?_eq_some_iff.1 hmin).2 a ha
        have hlt : n < m := Nat.lt_of_le_of_lt hn (hbelow m hmem)
        rw [hm]
        exact Nat.compare_eq_lt.2 hlt

variable {a b : Warning}

/-- A warning at an earlier place comes first, whatever else there is in both. -/
theorem order_eq_lt_of_precedes (h : Precedes a b) : order a b = .lt := by
  have hequal : a.source.same b.source = true →
      compareOn (fun warning : Warning => warning.source.parts) a b = .eq := by
    intro hsame
    rw [compareOn, Path.same_iff.1 hsame]
    exact ReflCmp.compare_self
  have hline : a.firstLine? = b.firstLine? → compareOn firstLine? a b = .eq := by
    intro hfirst
    rw [compareOn, hfirst]
    exact ReflCmp.compare_self
  rw [order, compareLex_eq_lt_iff, compareLex_eq_lt_iff, compareLex_eq_lt_iff,
    compareLex_eq_lt_iff]
  cases h with
  | source hsource => exact .inl (Path.compare_parts_eq_lt hsource)
  | firstLine hsource hlines => exact .inr ⟨hequal hsource, .inl (compare_min_eq_lt hlines)⟩
  | smellType hsource hfirst hsmell =>
      exact .inr ⟨hequal hsource, .inr ⟨hline hfirst, .inl (compare_string_eq_lt hsmell)⟩⟩
  | context hsource hfirst hsmell hcontext =>
      have hsmell' : compareOn smellType a b = .eq := by
        rw [compareOn, hsmell]
        exact ReflCmp.compare_self
      exact .inr ⟨hequal hsource, .inr ⟨hline hfirst, .inr ⟨hsmell',
        .inl (compare_string_eq_lt hcontext)⟩⟩⟩

end Places

/--
The order of warnings is total: warnings compare as equal exactly when they are
the `same`, in one of two opposite ways otherwise, and it is transitive.  It
follows the places of the warnings.
-/
theorem order_is_lawful (a b c : Warning) :
    (order a b = .eq ↔ a.same b = true) ∧
    order a b = (order b a).swap ∧
    ((order a b).isLE = true → (order b c).isLE = true → (order a c).isLE = true) ∧
    (Precedes a b → order a b = .lt) :=
  ⟨order_eq_eq_iff, OrientedCmp.eq_swap, TransCmp.isLE_trans, order_eq_lt_of_precedes⟩

/-- The smallest line goes before the smell type, and the source before both. -/
theorem order_of_three_warnings :
    let early : Warning :=
      ⟨"UtilityFunction", "Foo#bar", ⟨"lib/a.rb"⟩, [9, 4], "msg", NameMap.empty⟩
    let late : Warning :=
      ⟨"BooleanParameter", "Foo#bar", ⟨"lib//a.rb"⟩, [5], "msg", NameMap.empty⟩
    let last : Warning := ⟨"BooleanParameter", "Foo#bar", ⟨"lib/b.rb"⟩, [], "msg", NameMap.empty⟩
    order early late = .lt ∧ (order early last).isLE = true := by
  intro early late last
  have hsame : early.source.same late.source = true := by decide +kernel
  have hlines : LinesBefore early.lines late.lines :=
    ⟨List.cons_ne_nil _ _, .inr ⟨4, by decide, by decide⟩⟩
  have hsource : late.source.Before last.source := by
    have hlate : late.source.parts = [.name "lib", .name "a.rb"] := by decide +kernel
    have hlast : last.source.parts = [.name "lib", .name "b.rb"] := by decide +kernel
    rw [Path.Before, hlate, hlast]
    exact .cons (.rel (.inr ⟨rfl, by decide +kernel⟩))
  have hearly : order early late = .lt :=
    (order_is_lawful early late last).2.2.2 (.firstLine hsame hlines)
  have hlate : order late last = .lt := (order_is_lawful late last last).2.2.2 (.source hsource)
  refine ⟨hearly, (order_is_lawful early late last).2.2.1 ?_ ?_⟩
  · rw [hearly]
    rfl
  · rw [hlate]
    rfl

end Warning

end CodeSmells
