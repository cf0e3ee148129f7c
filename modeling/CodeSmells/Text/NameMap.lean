/-!
# Maps keyed by names

A `NameMap` holds at most one value for each name, in the byte order of the
names.  For Unicode text this is the order of the code points, so it is `<` on
`String`.

**Results.**

* `insertEntry_sorted`: inserting keeps the entries in strictly increasing order.
-/

namespace CodeSmells

/-- Put a value under a name, in place of an older one. -/
def insertEntry {β : Type} (name : String) (value : β) :
    List (String × β) → List (String × β)
  | [] => [(name, value)]
  | (other, old) :: rest =>
      if name < other then (name, value) :: (other, old) :: rest
      else if other < name then (other, old) :: insertEntry name value rest
      else (name, value) :: rest

/-- Names in strictly increasing order. -/
def SortedNames {β : Type} (entries : List (String × β)) : Prop :=
  entries.Pairwise (fun a b => a.1 < b.1)

/-- Each entry of the new list is the inserted one or an old one. -/
theorem mem_insertEntry {β : Type} {name : String} {value : β} {e : String × β}
    {entries : List (String × β)} (h : e ∈ insertEntry name value entries) :
    e = (name, value) ∨ e ∈ entries := by
  induction entries with
  | nil => simpa [insertEntry] using h
  | cons first rest ih =>
      obtain ⟨other, old⟩ := first
      unfold insertEntry at h
      split at h
      · simpa using h
      · split at h
        · rcases List.mem_cons.1 h with h | h
          · exact .inr (h ▸ List.mem_cons_self)
          · exact (ih h).imp_right (List.mem_cons_of_mem _)
        · rcases List.mem_cons.1 h with h | h
          · exact .inl h
          · exact .inr (List.mem_cons_of_mem _ h)

/-- Inserting keeps the names in order. -/
theorem insertEntry_sorted {β : Type} {name : String} {value : β}
    {entries : List (String × β)} (h : SortedNames entries) :
    SortedNames (insertEntry name value entries) := by
  induction entries with
  | nil => simp [insertEntry, SortedNames]
  | cons first rest ih =>
      obtain ⟨other, old⟩ := first
      obtain ⟨hfirst, hrest⟩ := List.pairwise_cons.1 h
      unfold insertEntry
      split
      next hlt =>
        refine List.pairwise_cons.2 ⟨fun e he => ?_, h⟩
        rcases List.mem_cons.1 he with he | he
        · exact he ▸ hlt
        · exact String.lt_trans hlt (hfirst e he)
      next hnot =>
        split
        next hgt =>
          refine List.pairwise_cons.2 ⟨fun e he => ?_, ih hrest⟩
          rcases mem_insertEntry he with he | he
          · exact he ▸ hgt
          · exact hfirst e he
        next hnot' =>
          have hname : name = other :=
            String.le_antisymm (String.not_lt.1 hnot') (String.not_lt.1 hnot)
          exact hname ▸ List.pairwise_cons.2 ⟨hfirst, hrest⟩

/-- A map from names to values. -/
structure NameMap (β : Type) where
  entries : List (String × β)
  sorted : SortedNames entries

namespace NameMap

variable {β : Type}

def empty : NameMap β :=
  ⟨[], List.Pairwise.nil⟩

instance : Inhabited (NameMap β) :=
  ⟨empty⟩

instance [DecidableEq β] : DecidableEq (NameMap β) := fun a b =>
  decidable_of_iff (a.entries = b.entries)
    ⟨fun h => by cases a; cases b; cases h; rfl, fun h => h ▸ rfl⟩

def insert (map : NameMap β) (name : String) (value : β) : NameMap β :=
  ⟨insertEntry name value map.entries, insertEntry_sorted map.sorted⟩

/-- The value under a name. -/
def get? (map : NameMap β) (name : String) : Option β :=
  (map.entries.find? (fun e => e.1 == name)).map Prod.snd

/-- The map of a list of entries; the last one of a name counts. -/
def ofList (entries : List (String × β)) : NameMap β :=
  entries.foldl (fun map e => map.insert e.1 e.2) empty

/-- The names in increasing order. -/
def names (map : NameMap β) : List String :=
  map.entries.map Prod.fst

def isEmpty (map : NameMap β) : Bool :=
  map.entries.isEmpty

end NameMap

end CodeSmells
