import CodeSmells.Text.NameMap
import Mathlib.Data.List.Nodup

/-!
# Maps and their entries

A map is known by its entries, and putting the entries of a map one after the
other into an empty map makes the map again.

**Results.**

* `ext_entries`: two maps with the same entries are equal.
* `get?_insert`: what stands under a name after a value was put under one.
* `mem_entries_iff`: the entries of a map are what stands under its names.
* `ext_get?`: two maps with the same values under all names are equal.
* `get?_ofList`: what stands under a name in the map of a list.
* `foldl_insert_entries`: a map is made up by its entries.
-/

namespace CodeSmells

variable {β : Type}

/-- A name after all the others goes to the end. -/
theorem insertEntry_last {name : String} {value : β} {entries : List (String × β)}
    (h : ∀ e ∈ entries, e.1 < name) :
    insertEntry name value entries = entries ++ [(name, value)] := by
  induction entries with
  | nil => rfl
  | cons first rest ih =>
      obtain ⟨other, old⟩ := first
      have hother : other < name := h (other, old) (by simp)
      have hnot : ¬ name < other := String.lt_asymm hother
      rw [insertEntry, if_neg hnot, if_pos hother, ih fun e he => h e (by simp [he])]
      rfl

/-- The entry of a name that stands once in a list is found. -/
theorem find?_of_nodup {entries : List (String × β)} {name : String} {value : β}
    (hnodup : (entries.map Prod.fst).Nodup) (hmem : (name, value) ∈ entries) :
    entries.find? (fun e => e.1 == name) = some (name, value) := by
  obtain ⟨e, hfound⟩ := Option.isSome_iff_exists.1
    (List.find?_isSome (p := fun e : String × β => e.1 == name) |>.2 ⟨_, hmem, by simp⟩)
  have hname : e.1 = name := by simpa using List.find?_some hfound
  have he : e = (name, value) :=
    List.inj_on_of_nodup_map hnodup (List.mem_of_find?_eq_some hfound) hmem hname
  rw [hfound, he]

namespace NameMap

theorem ext_entries {map other : NameMap β} (h : map.entries = other.entries) : map = other := by
  cases map
  cases other
  cases h
  rfl

/-- A value that is put under a name stands under this name, and under no other. -/
theorem get?_insert (map : NameMap β) (name key : String) (value : β) :
    (map.insert name value).get? key = if name = key then some value else map.get? key := by
  simp only [insert, get?]
  induction map.entries with
  | nil => by_cases hkey : name = key <;> simp [insertEntry, hkey]
  | cons first rest ih =>
      obtain ⟨other, old⟩ := first
      unfold insertEntry
      split
      next => by_cases hkey : name = key <;> simp [hkey]
      next hnot =>
        split
        next hgt =>
          by_cases hother : other = key
          · have hkey : name ≠ key := by
              rintro rfl
              exact String.lt_irrefl _ (hother ▸ hgt)
            simp [hother, hkey]
          · simp [hother, ih]
        next hnot' =>
          have hname : name = other :=
            String.le_antisymm (String.not_lt.1 hnot') (String.not_lt.1 hnot)
          by_cases hkey : other = key <;> simp [hname, hkey]

theorem pairwise_names (map : NameMap β) : map.names.Pairwise (· < ·) :=
  List.pairwise_map.2 map.sorted

theorem nodup_names (map : NameMap β) : map.names.Nodup :=
  map.pairwise_names.imp fun h => String.ne_of_lt h

/-- The entries of a map are what stands under its names. -/
theorem mem_entries_iff {map : NameMap β} {name : String} {value : β} :
    (name, value) ∈ map.entries ↔ map.get? name = some value := by
  rw [get?, Option.map_eq_some_iff]
  constructor
  · exact fun hmem => ⟨_, find?_of_nodup map.nodup_names hmem, rfl⟩
  · rintro ⟨⟨key, value'⟩, hfound, rfl⟩
    have hname : key = name := by simpa using List.find?_some hfound
    exact hname ▸ List.mem_of_find?_eq_some hfound

theorem mem_names_iff {map : NameMap β} {name : String} :
    name ∈ map.names ↔ ∃ value, map.get? name = some value := by
  rw [names, List.mem_map]
  constructor
  · rintro ⟨⟨_, value⟩, hmem, rfl⟩
    exact ⟨value, mem_entries_iff.1 hmem⟩
  · rintro ⟨value, hget⟩
    exact ⟨(name, value), mem_entries_iff.2 hget, rfl⟩

/-- Two maps with the same values under all names are equal. -/
theorem ext_get? {map other : NameMap β} (h : ∀ name, map.get? name = other.get? name) :
    map = other := by
  have hnodup (map : NameMap β) : map.entries.Nodup := List.Nodup.of_map Prod.fst map.nodup_names
  have hperm : map.entries.Perm other.entries := by
    rw [List.perm_ext_iff_of_nodup (hnodup map) (hnodup other)]
    rintro ⟨name, value⟩
    rw [mem_entries_iff, mem_entries_iff, h]
  refine ext_entries (hperm.eq_of_pairwise (fun a b _ _ hab hba => ?_) map.sorted other.sorted)
  exact absurd hba (String.lt_asymm hab)

/-- Values that are put under different names may be put there in either order. -/
theorem insert_comm {name other : String} (h : name ≠ other) (map : NameMap β) (value old : β) :
    (map.insert name value).insert other old = (map.insert other old).insert name value := by
  refine ext_get? fun key => ?_
  simp only [get?_insert]
  split_ifs with hother hname
  · exact absurd (hname.trans hother.symm) h
  · rfl
  · rfl
  · rfl

/-- Entries under other names change nothing under a name. -/
theorem get?_foldl_insert_of_notMem {entries : List (String × β)} {map : NameMap β}
    {name : String} (h : name ∉ entries.map Prod.fst) :
    (entries.foldl (fun map e => map.insert e.1 e.2) map).get? name = map.get? name := by
  induction entries generalizing map with
  | nil => rfl
  | cons e entries ih =>
      rw [List.map_cons, List.mem_cons, not_or] at h
      rw [List.foldl_cons, ih h.2, get?_insert, if_neg fun heq => h.1 heq.symm]

/-- What stands once under a name in a list stands under it in the map of the list. -/
theorem get?_ofList {entries : List (String × β)} {name : String} {value : β}
    (hnodup : (entries.map Prod.fst).Nodup) (hmem : (name, value) ∈ entries) :
    (ofList entries).get? name = some value := by
  rw [ofList]
  generalize (empty : NameMap β) = map
  induction entries generalizing map with
  | nil => cases hmem
  | cons e entries ih =>
      rw [List.map_cons, List.nodup_cons] at hnodup
      rw [List.foldl_cons]
      rcases List.mem_cons.1 hmem with rfl | hmem
      · rw [get?_foldl_insert_of_notMem hnodup.1, get?_insert, if_pos rfl]
      · exact ih hnodup.2 hmem _

/-- Entries after those of a map are put behind them. -/
theorem foldl_insert_append {entries : List (String × β)} {map : NameMap β}
    (h : SortedNames (map.entries ++ entries)) :
    (entries.foldl (fun map e => map.insert e.1 e.2) map).entries = map.entries ++ entries := by
  induction entries generalizing map with
  | nil => simp
  | cons e entries ih =>
      have hlast : ∀ old ∈ map.entries, old.1 < e.1 := by
        intro old hold
        exact (List.pairwise_append.1 h).2.2 old hold e (by simp)
      have hinsert : (map.insert e.1 e.2).entries = map.entries ++ [e] := insertEntry_last hlast
      have hsorted : SortedNames ((map.insert e.1 e.2).entries ++ entries) := by
        rw [hinsert, List.append_assoc]
        exact h
      rw [List.foldl_cons, ih hsorted, hinsert, List.append_assoc]
      rfl

theorem mem_foldl_insert {entries : List (String × β)} {map : NameMap β} {e : String × β}
    (h : e ∈ (entries.foldl (fun map e => map.insert e.1 e.2) map).entries) :
    e ∈ map.entries ∨ e ∈ entries := by
  induction entries generalizing map with
  | nil => exact .inl h
  | cons first entries ih =>
      rcases ih h with hmap | hrest
      · rcases mem_insertEntry hmap with rfl | hold
        · exact .inr (by simp)
        · exact .inl hold
      · exact .inr (List.mem_cons_of_mem first hrest)

/-- Every entry of a map that is made up by a list is in the list. -/
theorem mem_of_mem_ofList {entries : List (String × β)} {e : String × β}
    (h : e ∈ (ofList entries).entries) : e ∈ entries := by
  rcases mem_foldl_insert h with hnone | hmem
  · cases hnone
  · exact hmem

/-- Sorted entries are those of the map that they make up. -/
theorem entries_ofList {entries : List (String × β)} (h : SortedNames entries) :
    (ofList entries).entries = entries := by
  have hsorted : SortedNames ((empty : NameMap β).entries ++ entries) := h
  exact foldl_insert_append hsorted

/-- The entries of a map make up the map again. -/
theorem foldl_insert_entries (map : NameMap β) :
    map.entries.foldl (fun map e => map.insert e.1 e.2) empty = map :=
  ext_entries (entries_ofList map.sorted)

end NameMap

end CodeSmells
