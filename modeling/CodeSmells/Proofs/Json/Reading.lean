import CodeSmells.Proofs.Fallible
import CodeSmells.Proofs.Json.Grammar
import CodeSmells.Proofs.Json.Values
import CodeSmells.Proofs.NameMap

/-!
# Reading the tree of a value

A reader finds in a tree the value that the tree holds, as long as there is room
for the containers in it.

**Results.**

* `readText_of_holds`, `readNatural_of_holds`: readers of values without parts.
* `readList_of_holds`, `readMap_of_holds`: readers of containers.
* `fold_of_holds_nil`, `fold_of_holds_cons`: a reader of members takes them one by one.
* `readAny_of_holds`: the reader of any value.
-/

namespace CodeSmells.Json

open Fallible

variable {room : Nat} {node : Node}

section Scalars

theorem readText_of_holds {expected : Expected} {content : String}
    (h : node.Holds (.text content)) : readText expected room node = .ok content := by
  cases h with
  | text hread => exact hread

/-- A truth value that may be left out. -/
theorem readOptional_of_holds {value : Bool} (h : node.Holds (.bool value)) :
    readOptional readBool room node = .ok (some value) := by
  cases h with
  | bool => rfl

theorem readNatural_of_holds {n : Nat} (h : node.Holds (.natural n)) :
    readNatural room node = .ok n := by
  cases h with
  | integer hvalue =>
      rw [readNatural, readLiteral, hvalue]
      rfl

end Scalars

section Containers

variable {α : Type} {toJson : α → Json}

theorem readAll_of_holds {read : Node → Reading α} {items : Items} {values : List α}
    (h : items.Holds (values.map toJson))
    (hread : ∀ x ∈ values, ∀ node : Node, node.Holds (toJson x) → read node = .ok x) :
    items.readAll read = .ok values := by
  induction values generalizing items with
  | nil =>
      cases h with
      | close => rfl
  | cons x values ih =>
      rw [List.map_cons] at h
      cases h with
      | item hnode hmore =>
          have hfirst := hread x (by simp) _ hnode
          have hrest := ih hmore fun y hy => hread y (by simp [hy])
          rw [Items.readAll, hfirst, hrest]
          rfl

/-- A sequence is read item by item. -/
theorem readList_of_holds {read : Reader α} {values : List α}
    (h : node.Holds (.array (values.map toJson)))
    (hread : ∀ x ∈ values, ∀ node : Node, node.Holds (toJson x) → read room node = .ok x) :
    readList read (room + 1) node = .ok values := by
  cases h with
  | array hitems => exact readAll_of_holds hitems hread

/-- Without members the draft stays what it is. -/
theorem fold_of_holds_nil {σ : Type} (field : σ → String → FieldRule σ) (draft : σ)
    {entries : Entries} (h : entries.Holds []) :
    ∃ stop, entries.fold field draft = .ok (draft, stop) := by
  cases h with
  | @close stop => exact ⟨stop, rfl⟩

/-- A member that is known is read into the draft. -/
theorem fold_of_holds_cons {σ : Type} {field : σ → String → FieldRule σ} {draft : σ}
    {entries : Entries} {name : String} {value : Json} {members : List (String × Json)}
    {read : Node → Reading α} {update : α → σ} {x : α}
    (h : entries.Holds ((name, value) :: members))
    (hfield : field draft name = .known fun node => (read node).map update)
    (hread : ∀ node : Node, node.Holds value → read node = .ok x) :
    ∃ more, Entries.Holds more members ∧ entries.fold field draft = more.fold field (update x) := by
  cases h with
  | @entry key afterKey node after more _ _ _ hkey hnode hmore =>
      refine ⟨more, hmore, ?_⟩
      rw [Entries.fold, hkey, ok_bind, hfield]
      simp only [hread node hnode, Except.map, settle, ok_bind]

/-- The fields of an object that is read into a map. -/
def mapField (read : Node → Reading α) (map : NameMap α) (name : String) :
    FieldRule (NameMap α) :=
  .known fun node => (read node).map fun value => map.insert name value

/-- Members with values of one kind are put into a map. -/
theorem foldMap_of_holds {read : Node → Reading α} {listed : List (String × α)}
    {entries : Entries} (map : NameMap α)
    (h : entries.Holds (listed.map fun e => (e.1, toJson e.2)))
    (hread : ∀ e ∈ listed, ∀ node : Node, node.Holds (toJson e.2) → read node = .ok e.2) :
    ∃ stop, entries.fold (mapField read) map =
      .ok (listed.foldl (fun map e => map.insert e.1 e.2) map, stop) := by
  induction listed generalizing entries map with
  | nil => exact fold_of_holds_nil _ _ h
  | cons e listed ih =>
      have hfield : mapField read map e.1 =
          .known fun node => (read node).map fun value => map.insert e.1 value := rfl
      obtain ⟨more, hmore, hfold⟩ := fold_of_holds_cons h hfield (hread e (by simp))
      obtain ⟨stop, hstop⟩ :=
        ih (map.insert e.1 e.2) hmore fun e' he => hread e' (by simp [he])
      exact ⟨stop, hfold.trans hstop⟩

/-- An object with values of one kind is read member by member. -/
theorem readMap_of_holds {read : Reader α} {map : NameMap α}
    (h : node.Holds (Json.ofMap toJson map.entries))
    (hread : ∀ e ∈ map.entries, ∀ node : Node, node.Holds (toJson e.2) →
      read room node = .ok e.2) :
    readMap read (room + 1) node = .ok map := by
  cases h with
  | @object start entries _ hentries =>
      obtain ⟨stop, hfold⟩ := foldMap_of_holds NameMap.empty hentries hread
      have hmap : readMap read (room + 1) (.object start entries) =
          (entries.fold (mapField (read room)) NameMap.empty).map Prod.fst := rfl
      rw [hmap, hfold, NameMap.foldl_insert_entries]
      rfl

end Containers

section AnyValue

mutual

/-- Any value is read if there is room for the containers nested in it. -/
theorem readAny_of_holds {room : Nat} {node : Node} {value : Json} (h : node.Holds value)
    (hroom : value.nesting ≤ room) : readAny room node = .ok value := by
  cases h with
  | null => rfl
  | bool => rfl
  | integer hvalue => rw [readAny, readLiteral, hvalue]
  | real hvalue => rw [readAny, readLiteral, hvalue]
  | text hread =>
      rw [readAny, hread]
      rfl
  | array hitems =>
      rw [nesting] at hroom
      obtain ⟨room, rfl⟩ : ∃ n, room = n + 1 := ⟨room - 1, by omega⟩
      simp only [readAny, readAnyItems_of_holds hitems (Nat.le_of_succ_le_succ hroom)]
      rfl
  | object hentries =>
      rw [nesting] at hroom
      obtain ⟨room, rfl⟩ : ∃ n, room = n + 1 := ⟨room - 1, by omega⟩
      simp only [readAny, readAnyMembers_of_holds hentries (Nat.le_of_succ_le_succ hroom)]
      rfl

theorem readAnyItems_of_holds {room : Nat} {items : Items} {values : List Json}
    (h : items.Holds values) (hroom : nestingItems values ≤ room) :
    readAnyItems room items = .ok values := by
  cases h with
  | close => rfl
  | item hnode hmore =>
      rw [nestingItems, Nat.max_le] at hroom
      rw [readAnyItems, readAny_of_holds hnode hroom.1, ok_bind,
        readAnyItems_of_holds hmore hroom.2]
      rfl

theorem readAnyMembers_of_holds {room : Nat} {entries : Entries}
    {members : List (String × Json)} (h : entries.Holds members)
    (hroom : nestingMembers members ≤ room) : readAnyMembers room entries = .ok members := by
  cases h with
  | close => rfl
  | entry hkey hnode hmore =>
      rw [nestingMembers, Nat.max_le] at hroom
      rw [readAnyMembers, hkey, ok_bind, readAny_of_holds hnode hroom.1, ok_bind,
        readAnyMembers_of_holds hmore hroom.2]
      rfl

end

end AnyValue

end CodeSmells.Json
