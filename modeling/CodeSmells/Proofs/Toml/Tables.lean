import CodeSmells.Toml.Assembly
import CodeSmells.Toml.Read
import Mathlib.Data.List.Nodup

/-!
# Tables of documents

A table of a document has each name once, at every depth, and an array of tables
has at least one.  The statements of a document keep this as they are carried out,
one after the other.

**Results.**

* `find?_replace`, `find?_remove`, `find?_append`: what stands under a name after a change.
* `proper_at`: a change at the end of a path keeps the names distinct.
* `proper_step`, `proper_assemble`, `proper_assembleBraces`: so do statements, and
  the assignments in braces.
-/

namespace CodeSmells
namespace Toml

namespace Entries

/-- The names of a table in order. -/
def names (entries : Entries) : List String :=
  entries.map fun e => e.1.name

section Names

variable {entries : Entries} {name other : String} {item : Item}

theorem find?_eq_none_iff : entries.find? name = none ↔ name ∉ entries.names := by
  induction entries with
  | nil => simp [find?, names]
  | cons e entries ih =>
      obtain ⟨key, first⟩ := e
      by_cases hname : key.name = name
      · simp [find?, names, hname]
      · rw [find?, if_neg hname, ih]
        simp [names, Ne.symm hname]

theorem mem_of_find? (h : entries.find? name = some item) :
    ∃ key, key.name = name ∧ (key, item) ∈ entries := by
  induction entries with
  | nil => cases h
  | cons e entries ih =>
      obtain ⟨key, first⟩ := e
      by_cases hname : key.name = name
      · rw [find?, if_pos hname] at h
        cases h
        exact ⟨key, hname, List.mem_cons_self⟩
      · rw [find?, if_neg hname] at h
        obtain ⟨found, hfound, hmem⟩ := ih h
        exact ⟨found, hfound, List.mem_cons_of_mem _ hmem⟩

/-- The entry of a name that stands once in a table is found. -/
theorem find?_of_mem {key : Key} (hnodup : entries.names.Nodup) (hmem : (key, item) ∈ entries) :
    entries.find? key.name = some item := by
  induction entries with
  | nil => cases hmem
  | cons e entries ih =>
      obtain ⟨first, value⟩ := e
      obtain ⟨hfirst, hrest⟩ := List.nodup_cons.1 hnodup
      rcases List.mem_cons.1 hmem with heq | hmem
      · cases heq
        rw [find?, if_pos rfl]
      · have hname : first.name ≠ key.name := by
          intro heq
          refine hfirst (List.mem_map.2 ⟨_, hmem, heq.symm⟩)
        rw [find?, if_neg hname]
        exact ih hrest hmem

theorem find?_append (entries : Entries) (key : Key) (item : Item) (name : String) :
    Entries.find? name (entries ++ [(key, item)]) =
      (entries.find? name).or (if key.name = name then some item else none) := by
  induction entries with
  | nil => rfl
  | cons e entries ih =>
      obtain ⟨first, value⟩ := e
      by_cases hname : first.name = name
      · simp [find?, hname]
      · rw [List.cons_append, find?, find?, if_neg hname, if_neg hname, ih]

/-- A replaced item stands under its name, and the others stay. -/
theorem find?_replace (entries : Entries) (name : String) (item : Item) (other : String) :
    (entries.replace name item).find? other =
      if name = other then (entries.find? other).map fun _ => item else entries.find? other := by
  induction entries with
  | nil => simp [replace, find?]
  | cons e entries ih =>
      obtain ⟨key, old⟩ := e
      by_cases hname : key.name = name
      · by_cases hother : name = other <;> simp [replace, find?, hname, hother]
      · rw [replace, if_neg hname, find?, ih, find?]
        by_cases hother : key.name = other
        · have hne : name ≠ other := fun heq => hname (hother.trans heq.symm)
          simp [hother, hne]
        · simp [hother]

theorem find?_remove (entries : Entries) (name other : String) :
    (entries.remove name).find? other = if name = other then none else entries.find? other := by
  induction entries with
  | nil => simp [remove, find?]
  | cons e entries ih =>
      obtain ⟨key, item⟩ := e
      rw [remove, List.filter_cons]
      by_cases hname : key.name = name
      · rw [if_neg (by simp [hname]), ← remove, ih, find?]
        by_cases hother : name = other <;> simp [hname, hother]
      · rw [if_pos (by simp [hname]), find?, ← remove, ih, find?]
        by_cases hother : key.name = other
        · have hne : name ≠ other := fun heq => hname (hother.trans heq.symm)
          simp [hother, hne]
        · simp [hother]

theorem names_replace (entries : Entries) (name : String) (item : Item) :
    (entries.replace name item).names = entries.names := by
  induction entries with
  | nil => rfl
  | cons e entries ih =>
      obtain ⟨key, old⟩ := e
      by_cases hname : key.name = name
      · simp [replace, names, hname]
      · simp only [replace, if_neg hname, names, List.map_cons] at ih ⊢
        rw [ih]

theorem mem_replace {e : Key × Item} (h : e ∈ entries.replace name item) :
    e ∈ entries ∨ e.2 = item := by
  induction entries with
  | nil => cases h
  | cons first entries ih =>
      obtain ⟨key, old⟩ := first
      rw [replace] at h
      split at h
      · rcases List.mem_cons.1 h with rfl | hmem
        · exact .inr rfl
        · exact .inl (List.mem_cons_of_mem _ hmem)
      · rcases List.mem_cons.1 h with rfl | hmem
        · exact .inl List.mem_cons_self
        · exact (ih hmem).imp_left (List.mem_cons_of_mem _)

end Names

end Entries

/-- An item whose tables have each name once, and whose arrays of tables have at least one. -/
inductive Item.Proper : Item → Prop
  | scalar {value : Scalar} {span : Span} : Proper (.scalar value span)
  | array {items : List Item} {span : Span} :
      (∀ item ∈ items, Proper item) → Proper (.array items span)
  | braces {entries : Entries} {span : Span} :
      entries.names.Nodup → (∀ e ∈ entries, Proper e.2) → Proper (.braces entries span)
  | table {traits : Traits} {entries : Entries} :
      entries.names.Nodup → (∀ e ∈ entries, Proper e.2) → Proper (.table traits entries)
  | tables {elements : List (Traits × Entries)} :
      elements ≠ [] → (∀ element ∈ elements, element.2.names.Nodup) →
      (∀ element ∈ elements, ∀ e ∈ element.2, Proper e.2) → Proper (.tables elements)

/-- A table with each name once, at every depth. -/
structure Entries.Proper (entries : Entries) : Prop where
  distinct : entries.names.Nodup
  items : ∀ e ∈ entries, e.2.Proper

namespace Entries.Proper

variable {entries : Entries} {item : Item} {name : String}

theorem nil : Entries.Proper [] :=
  ⟨List.nodup_nil, nofun⟩

theorem of_find? (h : entries.Proper) (hfound : entries.find? name = some item) :
    item.Proper := by
  obtain ⟨key, -, hmem⟩ := mem_of_find? hfound
  exact h.items _ hmem

theorem append {key : Key} (h : entries.Proper) (hnew : entries.find? key.name = none)
    (hitem : item.Proper) : Entries.Proper (entries ++ [(key, item)]) where
  distinct := by
    rw [names, List.map_append, List.map_singleton, List.nodup_append]
    refine ⟨h.distinct, List.nodup_singleton _, fun other hmem last hlast => ?_⟩
    rw [List.mem_singleton.1 hlast]
    rintro rfl
    exact find?_eq_none_iff.1 hnew hmem
  items e he := by
    rcases List.mem_append.1 he with hold | hlast
    · exact h.items e hold
    · rw [List.mem_singleton.1 hlast]
      exact hitem

theorem replace (h : entries.Proper) (hitem : item.Proper) :
    (entries.replace name item).Proper where
  distinct := by
    rw [names_replace]
    exact h.distinct
  items e he := by
    rcases mem_replace he with hold | hnew
    · exact h.items e hold
    · rw [hnew]
      exact hitem

theorem remove (h : entries.Proper) (name : String) : (entries.remove name).Proper where
  distinct := h.distinct.sublist (List.filter_sublist.map _)
  items e he := h.items e (List.mem_of_mem_filter he)

theorem table (h : entries.Proper) (traits : Traits) : (Item.table traits entries).Proper :=
  .table h.distinct h.items

theorem of_table {traits : Traits} (h : (Item.table traits entries).Proper) :
    entries.Proper := by
  cases h with
  | table hdistinct hitems => exact ⟨hdistinct, hitems⟩

theorem of_entries? (h : item.Proper) (hentries : item.entries? = some entries) :
    entries.Proper := by
  cases h with
  | braces hdistinct hitems =>
      cases hentries
      exact ⟨hdistinct, hitems⟩
  | table hdistinct hitems =>
      cases hentries
      exact ⟨hdistinct, hitems⟩
  | scalar | array | tables => cases hentries

theorem of_element {elements : List (Traits × Entries)} {element : Traits × Entries}
    (h : (Item.tables elements).Proper) (hmem : element ∈ elements) : element.2.Proper := by
  cases h with
  | tables _ hdistinct hitems => exact ⟨hdistinct element hmem, hitems element hmem⟩

end Entries.Proper

/-- Tables after tables of a proper array are a proper array. -/
theorem Item.Proper.tables_append {front : List (Traits × Entries)} {element : Traits × Entries}
    (hfront : ∀ other ∈ front, other.2.Proper) (helement : element.2.Proper) :
    (Item.tables (front ++ [element])).Proper := by
  have hall : ∀ other ∈ front ++ [element], other.2.Proper := by
    intro other hmem
    rcases List.mem_append.1 hmem with hmem | hmem
    · exact hfront other hmem
    · exact List.mem_singleton.1 hmem ▸ helement
  exact .tables (by simp) (fun other hmem => (hall other hmem).distinct)
    fun other hmem => (hall other hmem).items

section Changes

variable {body changed : Body}

/-- A change of a table that keeps the names distinct. -/
def KeepsProper (change : Body → Option Body) : Prop :=
  ∀ body changed, change body = some changed → body.entries.Proper → changed.entries.Proper

/-- A change at the end of a path keeps the names distinct if it does so where it is made. -/
theorem proper_at {change : Body → Option Body} (hchange : KeepsProper change) (dotted : Bool)
    (path : List Key) : KeepsProper (Body.at dotted change path) := by
  induction path with
  | nil => exact hchange
  | cons key path ih =>
      intro body changed h hbody
      rw [Body.at] at h
      split at h
      next hnone =>
        obtain ⟨inner, hinner, heq⟩ := Option.bind_eq_some_iff.1 h
        cases heq
        exact hbody.append hnone ((ih _ _ hinner .nil).table inner.traits)
      next traits entries hfound =>
        have hentries := Entries.Proper.of_table (hbody.of_find? hfound)
        split at h
        · cases h
        · obtain ⟨inner, hinner, heq⟩ := Option.bind_eq_some_iff.1 h
          cases heq
          exact hbody.replace ((ih _ _ hinner hentries).table inner.traits)
      next elements hfound =>
        have helements := hbody.of_find? hfound
        obtain ⟨last, hlast, hrest⟩ := Option.bind_eq_some_iff.1 h
        obtain ⟨inner, hinner, heq⟩ := Option.bind_eq_some_iff.1 hrest
        cases heq
        have hproper := Entries.Proper.of_element helements (List.mem_of_getLast? hlast)
        refine hbody.replace (Item.Proper.tables_append (fun other hmem => ?_)
          (ih _ _ hinner hproper))
        exact Entries.Proper.of_element helements (List.dropLast_subset _ hmem)
      next => cases h

theorem proper_openTable (key : Key) (span : Span) : KeepsProper (openTable key span) := by
  intro body changed h hbody
  rw [openTable] at h
  split at h
  next hnone =>
    cases h
    exact hbody.append hnone (Entries.Proper.nil.table _)
  next old entries hfound =>
    split at h
    · cases h
      refine (hbody.remove key.name).append ?_
        ((Entries.Proper.of_table (hbody.of_find? hfound)).table _)
      rw [Entries.find?_remove, if_pos rfl]
    · cases h
  next => cases h

theorem proper_openElement (key : Key) (span : Span) : KeepsProper (openElement key span) := by
  intro body changed h hbody
  rw [openElement] at h
  split at h
  next hnone =>
    cases h
    exact hbody.append hnone (@Item.Proper.tables_append [] _ (by simp) .nil)
  next elements hfound =>
    cases h
    exact hbody.replace (Item.Proper.tables_append
      (fun other hmem => Entries.Proper.of_element (hbody.of_find? hfound) hmem) .nil)
  next => cases h

variable {item : Item}

theorem proper_assignKey (underDots : Bool) (key : Key) (hitem : item.Proper) :
    KeepsProper (assignKey underDots key item) := by
  intro body changed h hbody
  rw [assignKey] at h
  split_ifs at h with _ hfound
  cases h
  exact hbody.append (Option.not_isSome_iff_eq_none.1 hfound) hitem

theorem proper_assignPath (path : List Key) (hitem : item.Proper) :
    KeepsProper (assignPath path item) := by
  intro body changed h
  obtain ⟨⟨way, key⟩, -, hat⟩ := Option.bind_eq_some_iff.1 h
  exact proper_at (proper_assignKey _ key hitem) true way _ _ hat

theorem entries_extend (body : Body) (item : Item) : (body.extend item).entries = body.entries := by
  rw [Body.extend]
  split <;> rfl

/-- The values that a statement writes have distinct names in their tables. -/
def Statement.Proper : Statement → Prop
  | .assign _ item => item.Proper
  | .header _ _ => True
  | .arrayHeader _ _ => True

/-- Each statement keeps the names distinct. -/
theorem proper_step {assembly next : Assembly} {statement : Statement}
    (hstatement : statement.Proper) (h : assembly.step statement = some next)
    (hroot : assembly.root.entries.Proper) : next.root.entries.Proper := by
  cases statement with
  | header path span =>
      obtain ⟨⟨way, key⟩, -, hrest⟩ := Option.bind_eq_some_iff.1 h
      obtain ⟨root, hat, heq⟩ := Option.bind_eq_some_iff.1 hrest
      cases heq
      exact proper_at (proper_openTable key span) false way _ _ hat hroot
  | arrayHeader path span =>
      obtain ⟨⟨way, key⟩, -, hrest⟩ := Option.bind_eq_some_iff.1 h
      obtain ⟨root, hat, heq⟩ := Option.bind_eq_some_iff.1 hrest
      cases heq
      exact proper_at (proper_openElement key span) false way _ _ hat hroot
  | assign path item =>
      obtain ⟨root, hat, heq⟩ := Option.bind_eq_some_iff.1 h
      cases heq
      refine proper_at (fun body changed hchange hbody => ?_) false _ _ _ hat hroot
      refine proper_assignPath path hstatement _ _ hchange ?_
      rw [entries_extend]
      exact hbody

/-- The tables of a document have each name once. -/
theorem proper_assemble {statements : List Statement} {entries : Entries}
    (hstatements : ∀ statement ∈ statements, statement.Proper)
    (h : assemble statements = some entries) : entries.Proper := by
  obtain ⟨final, hfold, rfl⟩ := Option.map_eq_some_iff.1 h
  have hstart : Assembly.empty.root.entries.Proper := .nil
  clear h
  generalize Assembly.empty = assembly at hfold hstart
  induction statements generalizing assembly with
  | nil =>
      cases hfold
      exact hstart
  | cons statement statements ih =>
      obtain ⟨next, hstep, hrest⟩ := Option.bind_eq_some_iff.1 hfold
      obtain ⟨hfirst, hlater⟩ := List.forall_mem_cons.1 hstatements
      exact ih hlater next hrest (proper_step hfirst hstep hstart)

/-- The tables of braces have each name once. -/
theorem proper_assembleBraces {assignments : List (List Key × Item)} {entries : Entries}
    (hitems : ∀ assignment ∈ assignments, assignment.2.Proper)
    (h : assembleBraces assignments = some entries) : entries.Proper := by
  obtain ⟨final, hfold, rfl⟩ := Option.map_eq_some_iff.1 h
  have hstart : (⟨⟨false, false, none⟩, []⟩ : Body).entries.Proper := .nil
  clear h
  generalize (⟨⟨false, false, none⟩, []⟩ : Body) = body at hfold hstart
  induction assignments generalizing body with
  | nil =>
      cases hfold
      exact hstart
  | cons assignment assignments ih =>
      obtain ⟨next, hassign, hrest⟩ := Option.bind_eq_some_iff.1 hfold
      obtain ⟨hfirst, hlater⟩ := List.forall_mem_cons.1 hitems
      exact ih hlater next hrest (proper_assignPath assignment.1 hfirst _ _ hassign hstart)

end Changes

end Toml
end CodeSmells
