import CodeSmells.Proofs.Fallible
import CodeSmells.Proofs.Toml.Tables

/-!
# What is read from items

A reader of a table goes through its entries in order.  It succeeds when each item
under a name that it knows can be read, and each part of what it reads is said by
the item under one name, wherever this item stands.

**Results.**

* `readText_eq_ok_iff`, `readBool_eq_ok_iff`, `readTexts_eq_ok_iff`: what an item says.
* `exists_foldEntries`: when the entries of a table can be read.
* `meansOr_foldEntries`: what the entries of a table say on one part.
* `Resemble.meansOr_iff`: items that say the same give the same.
-/

namespace CodeSmells
namespace Toml

open Fallible

section Items

/-- An item is a table, in braces or under a header or a dotted key. -/
def Item.IsTable (item : Item) : Prop :=
  ∃ entries, item.entries? = some entries

/-- An item is a text. -/
def Item.IsText (item : Item) (value : String) : Prop :=
  ∃ span, item = .scalar (.text value) span

/-- An item is `true` or `false`. -/
def Item.IsBool (item : Item) (value : Bool) : Prop :=
  ∃ span, item = .scalar (.bool value) span

/-- An item is an array of texts. -/
def Item.IsTexts (item : Item) (values : List String) : Prop :=
  ∃ items span, item = .array items span ∧ List.Forall₂ Item.IsText items values

variable {item : Item} {span : Span}

theorem readText_eq_ok_iff {value : String} :
    readText span item = .ok value ↔ item.IsText value := by
  rw [readText.eq_def]
  split
  next text place => simp [Item.IsText]
  next hother =>
    simp only [refuse, reduceCtorEq, false_iff, Item.IsText, not_exists]
    exact fun place heq => hother _ _ heq

theorem readBool_eq_ok_iff {value : Bool} :
    readBool span item = .ok value ↔ item.IsBool value := by
  rw [readBool.eq_def]
  split
  next text place => simp [Item.IsBool]
  next hother =>
    simp only [refuse, reduceCtorEq, false_iff, Item.IsBool, not_exists]
    exact fun place heq => hother _ _ heq

/-- A list of texts is read from an array of texts; an array of tables is none. -/
theorem readTexts_eq_ok_iff {values : List String} (hproper : item.Proper) :
    readList readText span item = .ok values ↔ item.IsTexts values := by
  have hmapM (items : List Item) : (items.mapM fun i => readText (i.span?.getD span) i) =
      .ok values ↔ List.Forall₂ Item.IsText items values := by
    simp only [mapM_eq_ok_iff, readText_eq_ok_iff]
  cases hproper with
  | scalar | braces | table => simp [readList, Item.items?, refuse, Item.IsTexts]
  | @array items place _ =>
      simp only [readList, Item.items?, hmapM, Item.IsTexts, Item.array.injEq]
      constructor
      · exact fun hall => ⟨items, place, ⟨rfl, rfl⟩, hall⟩
      · rintro ⟨_, _, ⟨rfl, rfl⟩, hall⟩
        exact hall
  | @tables elements hsome _ _ =>
      obtain ⟨first, rest, rfl⟩ := List.exists_cons_of_ne_nil hsome
      simp only [readList, Item.items?, hmapM, Item.IsTexts, reduceCtorEq, false_and,
        exists_false, iff_false, List.map_cons]
      rintro (_ | ⟨⟨_, hfirst⟩, -⟩)
      cases hfirst

theorem Item.rightUnique_isText : Relator.RightUnique Item.IsText := by
  rintro item value other ⟨_, rfl⟩ ⟨_, heq⟩
  cases heq
  rfl

theorem Item.rightUnique_isBool : Relator.RightUnique Item.IsBool := by
  rintro item value other ⟨_, rfl⟩ ⟨_, heq⟩
  cases heq
  rfl

theorem Item.rightUnique_isTexts : Relator.RightUnique Item.IsTexts := by
  rintro item values others ⟨items, _, rfl, hall⟩ ⟨_, _, heq, hall'⟩
  cases heq
  exact Item.rightUnique_isText.forall₂ hall hall'

end Items

section Defaults

variable {α : Type} {meaning : Item → α → Prop} {omitted x : α} {item other : Option Item}

/-- What an item says, or else what counts where there is no item. -/
def MeansOr (meaning : Item → α → Prop) (omitted : α) : Option Item → α → Prop
  | none, x => x = omitted
  | some item, x => meaning item x

theorem MeansOr.said {found : Item} (h : MeansOr meaning omitted item x)
    (hfound : item = some found) : meaning found x := by
  rw [hfound] at h
  exact h

theorem MeansOr.exists_said (h : MeansOr meaning omitted item x) (found : Item)
    (hfound : item = some found) : ∃ x, meaning found x :=
  ⟨x, h.said hfound⟩

theorem exists_meansOr (omitted : α) (h : ∀ found, item = some found → ∃ x, meaning found x) :
    ∃ x, MeansOr meaning omitted item x := by
  cases item with
  | none => exact ⟨omitted, rfl⟩
  | some item => exact h item rfl

theorem rightUnique_meansOr (h : Relator.RightUnique meaning) :
    Relator.RightUnique (MeansOr meaning omitted) := by
  intro item x y hx hy
  cases item with
  | none => exact hx.trans hy.symm
  | some item => exact h hx hy

/-- A value that an item says, as one that may be missing. -/
def Given (meaning : Item → α → Prop) (item : Item) (value : Option α) : Prop :=
  ∃ x, meaning item x ∧ value = some x

theorem rightUnique_given (h : Relator.RightUnique meaning) :
    Relator.RightUnique (Given meaning) := by
  rintro item x y ⟨value, hvalue, rfl⟩ ⟨other, hother, rfl⟩
  rw [h hvalue hother]

/-- What the entries of a table say. -/
def Within (describes : Entries → α → Prop) (item : Item) (x : α) : Prop :=
  ∃ entries, item.entries? = some entries ∧ describes entries x

theorem rightUnique_within {describes : Entries → α → Prop} (h : Relator.RightUnique describes) :
    Relator.RightUnique (Within describes) := by
  rintro item x y ⟨entries, hentries, hx⟩ ⟨others, hothers, hy⟩
  rw [hentries] at hothers
  cases hothers
  exact h hx hy

/-- Two items that are the same to a reader of tables, texts, switches and lists. -/
structure Item.Resembles (item other : Item) : Prop where
  table : item.IsTable ↔ other.IsTable
  text : ∀ value, item.IsText value ↔ other.IsText value
  bool : ∀ value, item.IsBool value ↔ other.IsBool value
  texts : ∀ values, item.IsTexts values ↔ other.IsTexts values

theorem Item.Resembles.symm {item other : Item} (h : item.Resembles other) :
    other.Resembles item where
  table := h.table.symm
  text value := (h.text value).symm
  bool value := (h.bool value).symm
  texts values := (h.texts values).symm

/-- Where there is an item in one place there is one in the other, and they resemble each other. -/
abbrev Resemble : Option Item → Option Item → Prop :=
  Option.Rel Item.Resembles

theorem Resemble.meansOr_iff (h : Resemble item other)
    (hmeaning : ∀ item other : Item, item.Resembles other → ∀ x, meaning item x ↔ meaning other x) :
    MeansOr meaning omitted item x ↔ MeansOr meaning omitted other x := by
  cases h with
  | none => rfl
  | some hresembles => exact hmeaning _ _ hresembles x

end Defaults

section Paths

/-- The item at a path of names, through tables of every kind. -/
def Entries.item? : Entries → List String → Option Item
  | _, [] => none
  | entries, [name] => entries.find? name
  | entries, name :: path =>
      ((entries.find? name).bind Item.entries?).bind fun inner => item? inner path

variable {entries inner : Entries} {item : Item} {name next : String} {path : List String}

theorem Entries.item?_of_table (hfound : entries.find? name = some item)
    (htable : item.entries? = some inner) :
    entries.item? (name :: next :: path) = inner.item? (next :: path) := by
  rw [item?, hfound, Option.bind_some, htable, Option.bind_some]
  exact List.cons_ne_nil next path

theorem Entries.item?_of_none (hfound : entries.find? name = none) :
    entries.item? (name :: path) = none := by
  cases path with
  | nil => exact hfound
  | cons next path =>
      rw [item?, hfound]
      · rfl
      · exact List.cons_ne_nil next path

theorem Entries.item?_singleton (entries : Entries) (name : String) :
    entries.item? [name] = entries.find? name :=
  rfl

theorem Entries.item?_cons_cons (entries : Entries) (name next : String) (path : List String) :
    entries.item? (name :: next :: path) =
      (entries.find? name).bind fun item =>
        item.entries?.bind fun inner => inner.item? (next :: path) := by
  rw [item?, Option.bind_assoc]
  exact List.cons_ne_nil next path

/-- The item at a longer path is looked for in the item at a path. -/
theorem Entries.item?_concat (entries : Entries) (name : String) (path : List String)
    (key : String) :
    entries.item? (name :: path ++ [key]) = (entries.item? (name :: path)).bind fun item =>
      item.entries?.bind fun inner => inner.item? [key] := by
  induction path generalizing entries name with
  | nil => exact item?_cons_cons entries name key []
  | cons next path ih =>
      rw [List.cons_append, List.cons_append, item?_cons_cons, item?_cons_cons,
        Option.bind_assoc]
      refine Option.bind_congr fun item _ => ?_
      rw [Option.bind_assoc]
      exact Option.bind_congr fun inner _ => ih inner next

/-- What an item in a table says is what the item at a longer path says. -/
theorem meansOr_within_iff {α : Type} {meaning : Item → α → Prop} {omitted x : α}
    (htable : ∀ item, entries.find? name = some item → item.IsTable) :
    MeansOr (Within fun inner => MeansOr meaning omitted (inner.item? (next :: path))) omitted
        (entries.find? name) x ↔
      MeansOr meaning omitted (entries.item? (name :: next :: path)) x := by
  cases hfound : entries.find? name with
  | none => rw [Entries.item?_of_none hfound]; rfl
  | some item =>
      obtain ⟨inner, hinner⟩ := htable item hfound
      rw [Entries.item?_of_table hfound hinner]
      simp only [MeansOr, Within, hinner, Option.some.injEq, exists_eq_left']

end Paths

section Folds

variable {σ α : Type} {field : σ → String → Option (Reader σ)} {entries : Entries}

/-- The entries of a table can be read if each item under a known name can be read. -/
theorem exists_foldEntries (hdistinct : entries.names.Nodup)
    (hreads : ∀ draft name read span item, field draft name = some read →
      entries.find? name = some item → ∃ next, read span item = .ok next) (draft : σ) :
    ∃ final, foldEntries field draft entries = .ok final := by
  -- The entries are read one after the other, and each stands in the whole table.
  have hrun (rest : Entries) (hrest : ∀ e ∈ rest, entries.find? e.1.name = some e.2) (draft : σ) :
      ∃ final, foldEntries field draft rest = .ok final := by
    induction rest generalizing draft with
    | nil => exact ⟨draft, rfl⟩
    | cons e rest ih =>
        obtain ⟨key, item⟩ := e
        obtain ⟨hitem, hrest⟩ := List.forall_mem_cons.1 hrest
        rw [foldEntries]
        cases hfield : field draft key.name with
        | none => exact ih hrest draft
        | some read =>
            obtain ⟨next, hnext⟩ :=
              hreads draft key.name read (spanUnder key item) item hfield hitem
            obtain ⟨final, hfinal⟩ := ih hrest next
            exact ⟨final, bind_eq_ok_iff.2 ⟨next, hnext, hfinal⟩⟩
  exact hrun entries (fun e hmem => Entries.find?_of_mem hdistinct hmem) draft

/-- A part that only the entry of one name changes is what this entry says. -/
theorem meansOr_foldEntries (part : σ → α) {name : String} {meaning : Item → α → Prop}
    (hdistinct : entries.names.Nodup)
    (hother : ∀ draft key read span item next, key ≠ name → field draft key = some read →
      read span item = .ok next → part next = part draft)
    (hsaid : ∀ draft, ∃ read, field draft name = some read ∧ ∀ span item next,
      entries.find? name = some item → read span item = .ok next → meaning item (part next))
    {draft final : σ} (h : foldEntries field draft entries = .ok final) :
    MeansOr meaning (part draft) (entries.find? name) (part final) := by
  induction entries generalizing draft with
  | nil =>
      cases h
      rfl
  | cons e entries ih =>
      obtain ⟨key, item⟩ := e
      obtain ⟨hnew, hdistinct⟩ := List.nodup_cons.1 hdistinct
      rw [foldEntries] at h
      by_cases hname : key.name = name
      · -- The name does not occur again, so what its entry says is kept.
        subst hname
        obtain ⟨read, hread, hmeaning⟩ := hsaid draft
        rw [hread] at h
        obtain ⟨next, hnext, hfinal⟩ := bind_eq_ok_iff.1 h
        have hnone := Entries.find?_eq_none_iff.2 hnew
        have hlater := ih hdistinct (fun draft => ⟨_, (hsaid draft).choose_spec.1,
          fun _ _ _ hfound => nomatch hnone.symm.trans hfound⟩) hfinal
        rw [hnone] at hlater
        rw [Entries.find?, if_pos rfl, show part final = part next from hlater]
        exact hmeaning _ item next (if_pos rfl) hnext
      · simp only [Entries.find?, if_neg hname] at hsaid ⊢
        cases hfield : field draft key.name with
        | none =>
            rw [hfield] at h
            exact ih hdistinct hsaid h
        | some read =>
            rw [hfield] at h
            obtain ⟨next, hnext, hfinal⟩ := bind_eq_ok_iff.1 h
            rw [← hother draft key.name read _ item next hname hfield hnext]
            exact ih hdistinct hsaid hfinal

/-- A record is read from the entries of a table. -/
theorem readRecord_of_entries? {name : String} {blank : σ}
    {fields : List (String × (σ → Reader σ))} {span : Span} {item : Item}
    (h : item.entries? = some entries) :
    readRecord name blank fields span item =
      foldEntries (fun draft key => (fields.lookup key).map fun read => read draft)
        blank entries := by
  simp only [readRecord, h]

end Folds

end Toml
end CodeSmells
