import CodeSmells.Json.Read
import CodeSmells.Proofs.NameMap
import Mathlib.Algebra.Group.Int.Defs
import Mathlib.Algebra.Group.Nat.Defs

/-!
# Inside a JSON value

A value is taken apart into the values inside it, and its nesting is how many
containers stand around the innermost of them.

**Results.**

* `induction_on`: what containers take over from their parts holds of all values.
* `inside_array_iff`, `inside_object_iff`: what is inside a container.
* `sortMembers_of_sorted`: sorting leaves a value alone whose members are sorted.
* `sorted_of_inside_sortMembers`: all members inside a sorted value are sorted.
-/

namespace CodeSmells.Json

/-- Induction on a value by way of its items and the values of its members. -/
@[elab_as_elim]
theorem induction_on {motive : Json → Prop} (value : Json) (null : motive .null)
    (bool : ∀ b, motive (.bool b)) (integer : ∀ n, motive (.integer n))
    (real : ∀ x, motive (.real x)) (text : ∀ s, motive (.text s))
    (array : ∀ items : List Json, (∀ v ∈ items, motive v) → motive (.array items))
    (object : ∀ members : List (String × Json), (∀ e ∈ members, motive e.2) →
      motive (.object members)) : motive value := by
  match value with
  | .null => exact null
  | .bool b => exact bool b
  | .integer n => exact integer n
  | .real x => exact real x
  | .text s => exact text s
  | .array items =>
      exact array items fun v _ => induction_on v null bool integer real text array object
  | .object members =>
      exact object members fun e _ => induction_on e.2 null bool integer real text array object
termination_by value
decreasing_by
  · rename_i hmem
    have hlt := List.sizeOf_lt_of_mem hmem
    simp only [Json.array.sizeOf_spec]
    omega
  · rename_i hmem
    have hlt := List.sizeOf_lt_of_mem hmem
    have hsnd : sizeOf e.2 < sizeOf e := by
      obtain ⟨name, value⟩ := e
      simp only [Prod.mk.sizeOf_spec]
      omega
    simp only [Json.object.sizeOf_spec]
    omega

/-- The first value is the second one or stands somewhere inside it. -/
inductive Inside (inner : Json) : Json → Prop
  | self : Inside inner inner
  | item {value : Json} {items : List Json} :
      value ∈ items → Inside inner value → Inside inner (.array items)
  | member {name : String} {value : Json} {members : List (String × Json)} :
      (name, value) ∈ members → Inside inner value → Inside inner (.object members)

mutual

/-- How many containers are nested in a value. -/
def nesting : Json → Nat
  | .array items => nestingItems items + 1
  | .object members => nestingMembers members + 1
  | _ => 0

def nestingItems : List Json → Nat
  | [] => 0
  | item :: rest => max item.nesting (nestingItems rest)

def nestingMembers : List (String × Json) → Nat
  | [] => 0
  | (_, value) :: rest => max value.nesting (nestingMembers rest)

end

section Parts

variable {inner : Json} {items : List Json} {members : List (String × Json)} {n : Nat}

/-- Everything inside an array is the array itself or inside one of its items. -/
theorem inside_array_iff :
    Inside inner (.array items) ↔ inner = .array items ∨ ∃ v ∈ items, Inside inner v := by
  constructor
  · intro h
    cases h with
    | self => exact .inl rfl
    | item hmem hinside => exact .inr ⟨_, hmem, hinside⟩
  · rintro (rfl | ⟨v, hmem, hinside⟩)
    · exact .self
    · exact .item hmem hinside

/-- Everything inside an object is the object itself or inside the value of a member. -/
theorem inside_object_iff :
    Inside inner (.object members) ↔
      inner = .object members ∨ ∃ e ∈ members, Inside inner e.2 := by
  constructor
  · intro h
    cases h with
    | self => exact .inl rfl
    | member hmem hinside => exact .inr ⟨_, hmem, hinside⟩
  · rintro (rfl | ⟨⟨name, value⟩, hmem, hinside⟩)
    · exact .self
    · exact .member hmem hinside

theorem nestingItems_le_iff : nestingItems items ≤ n ↔ ∀ v ∈ items, v.nesting ≤ n := by
  induction items with
  | nil => simp [nestingItems]
  | cons item rest ih =>
      rw [nestingItems, Nat.max_le, ih]
      simp

theorem nestingMembers_le_iff : nestingMembers members ≤ n ↔ ∀ e ∈ members, e.2.nesting ≤ n := by
  induction members with
  | nil => simp [nestingMembers]
  | cons member rest ih =>
      rw [nestingMembers, Nat.max_le, ih]
      simp

end Parts

section Sorting

variable {items : List Json} {members : List (String × Json)} {value : Json}

theorem sortItems_eq_map (items : List Json) : sortItems items = items.map sortMembers := by
  induction items with
  | nil => rfl
  | cons item rest ih => rw [sortItems, ih, List.map_cons]

theorem sortValues_eq_map (members : List (String × Json)) :
    sortValues members = members.map fun e => (e.1, sortMembers e.2) := by
  induction members with
  | nil => rfl
  | cons member rest ih => rw [sortValues, ih, List.map_cons]

/-- The members of a sorted object come from the members before they were sorted. -/
theorem exists_of_mem_sorted {e : String × Json}
    (h : e ∈ (NameMap.ofList (sortValues members)).entries) :
    ∃ member ∈ members, e = (member.1, sortMembers member.2) := by
  have hmem := NameMap.mem_of_mem_ofList h
  rw [sortValues_eq_map] at hmem
  obtain ⟨member, hmember, rfl⟩ := List.mem_map.1 hmem
  exact ⟨member, hmember, rfl⟩

/-- Sorting changes nothing where all members are sorted. -/
theorem sortMembers_of_sorted
    (h : ∀ members, Inside (.object members) value → SortedNames members) :
    sortMembers value = value := by
  induction value using induction_on with
  | null | bool | integer | real | text => rfl
  | array items ih =>
      have hitems : items.map sortMembers = items := by
        conv_rhs => rw [← List.map_id items]
        exact List.map_congr_left fun v hv => ih v hv fun ms hms => h ms (.item hv hms)
      rw [sortMembers, sortItems_eq_map, hitems]
  | object members ih =>
      have hvalues : (members.map fun e => (e.1, sortMembers e.2)) = members := by
        conv_rhs => rw [← List.map_id members]
        refine List.map_congr_left fun e he => ?_
        rw [ih e he fun ms hms => h ms (.member he hms)]
        rfl
      rw [sortMembers, sortValues_eq_map, hvalues, NameMap.entries_ofList (h members .self)]

/-- Sorting brings no integers in. -/
theorem inside_of_inside_sortMembers {n : Int} (h : Inside (.integer n) (sortMembers value)) :
    Inside (.integer n) value := by
  induction value using induction_on with
  | null | bool | integer | real | text => exact h
  | array items ih =>
      rw [sortMembers, sortItems_eq_map, inside_array_iff] at h
      rcases h with hself | ⟨v, hv, hinside⟩
      · cases hself
      · obtain ⟨item, hitem, rfl⟩ := List.mem_map.1 hv
        exact .item hitem (ih item hitem hinside)
  | object members ih =>
      rw [sortMembers, inside_object_iff] at h
      rcases h with hself | ⟨e, he, hinside⟩
      · cases hself
      · obtain ⟨member, hmember, rfl⟩ := exists_of_mem_sorted he
        exact .member hmember (ih member hmember hinside)

/-- All members inside a sorted value are sorted. -/
theorem sorted_of_inside_sortMembers (h : Inside (.object members) (sortMembers value)) :
    SortedNames members := by
  induction value using induction_on with
  | null | bool | integer | real | text => cases h
  | array items ih =>
      rw [sortMembers, sortItems_eq_map, inside_array_iff] at h
      rcases h with hself | ⟨v, hv, hinside⟩
      · cases hself
      · obtain ⟨item, hitem, rfl⟩ := List.mem_map.1 hv
        exact ih item hitem hinside
  | object inner ih =>
      rw [sortMembers, inside_object_iff] at h
      rcases h with hself | ⟨e, he, hinside⟩
      · cases hself
        exact (NameMap.ofList (sortValues inner)).sorted
      · obtain ⟨member, hmember, rfl⟩ := exists_of_mem_sorted he
        exact ih member hmember hinside

/-- Sorting nests nothing deeper. -/
theorem nesting_sortMembers_le (value : Json) : (sortMembers value).nesting ≤ value.nesting := by
  induction value using induction_on with
  | null | bool | integer | real | text => exact Nat.le_refl _
  | array items ih =>
      rw [sortMembers, sortItems_eq_map, nesting, nesting, Nat.add_le_add_iff_right,
        nestingItems_le_iff]
      intro v hv
      obtain ⟨item, hitem, rfl⟩ := List.mem_map.1 hv
      exact Nat.le_trans (ih item hitem) (nestingItems_le_iff.1 (Nat.le_refl _) item hitem)
  | object members ih =>
      rw [sortMembers, nesting, nesting, Nat.add_le_add_iff_right, nestingMembers_le_iff]
      intro e he
      obtain ⟨member, hmember, rfl⟩ := exists_of_mem_sorted he
      exact Nat.le_trans (ih member hmember)
        (nestingMembers_le_iff.1 (Nat.le_refl _) member hmember)

end Sorting

section Bounds

/-- Integers inside the value have 64 bits, and there is room for its containers. -/
structure IsBounded (room : Nat) (value : Json) : Prop where
  integers : ∀ n, Inside (.integer n) value → -2 ^ 63 ≤ n ∧ n < 2 ^ 64
  nesting : value.nesting ≤ room

theorem IsBounded.array {room : Nat} {items : List Json} (h : ∀ v ∈ items, IsBounded room v) :
    IsBounded (room + 1) (.array items) := by
  constructor
  · intro n hn
    cases hn with
    | item hmem hinside => exact (h _ hmem).integers n hinside
  · rw [Json.nesting, Nat.add_le_add_iff_right, nestingItems_le_iff]
    exact fun v hv => (h v hv).nesting

theorem IsBounded.object {room : Nat} {members : List (String × Json)}
    (h : ∀ e ∈ members, IsBounded room e.2) : IsBounded (room + 1) (.object members) := by
  constructor
  · intro n hn
    cases hn with
    | member hmem hinside => exact (h _ hmem).integers n hinside
  · rw [Json.nesting, Nat.add_le_add_iff_right, nestingMembers_le_iff]
    exact fun e he => (h e he).nesting

theorem isBounded_leaf {room : Nat} {value : Json} (hnumber : ∀ n, value ≠ .integer n)
    (harray : ∀ items, value ≠ .array items) (hobject : ∀ members, value ≠ .object members) :
    IsBounded room value := by
  constructor
  · intro n hn
    cases hn with
    | self => exact absurd rfl (hnumber n)
    | item => exact absurd rfl (harray _)
    | member => exact absurd rfl (hobject _)
  · cases value with
    | array items => exact absurd rfl (harray items)
    | object members => exact absurd rfl (hobject members)
    | _ => exact Nat.zero_le room

/-- A bounded value is bounded when its members are sorted. -/
theorem IsBounded.sortMembers {room : Nat} {value : Json} (h : IsBounded room value) :
    IsBounded room value.sortMembers := by
  constructor
  · exact fun n hn => h.integers n (inside_of_inside_sortMembers hn)
  · exact Nat.le_trans (nesting_sortMembers_le value) h.nesting

end Bounds

end CodeSmells.Json
