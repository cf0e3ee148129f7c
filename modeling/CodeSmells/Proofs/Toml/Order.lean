import CodeSmells.Proofs.Toml.Mentions
import CodeSmells.Proofs.Toml.Reading

/-!
# Documents that are written in another order

Two documents that mention the same places, in whatever order, are the same to a
reader that looks for an item by its path.

**Results.**

* `Like.resembles`: values with the same entries in another order are the same to a reader.
* `exists_shows_of_kept`: the same is seen after the same was mentioned.
* `resemble_of_rewrites`: rewritten documents have the same items at every path.
-/

namespace CodeSmells
namespace Toml

/-- Two items that differ in their places and in the order of their keys at most. -/
inductive Item.Like : Item → Item → Prop
  | refl (item : Item) : Like item item
  | scalar {value : Scalar} {span place : Span} : Like (.scalar value span) (.scalar value place)
  | array {items others : List Item} {span place : Span} :
      List.Forall₂ Like items others → Like (.array items span) (.array others place)
  | braces {entries others : Entries} {span place : Span} :
      (∀ name, Option.Rel Like (entries.find? name) (others.find? name)) →
      Like (.braces entries span) (.braces others place)
  | table {entries others : Entries} {traits other : Traits} :
      (∀ name, Option.Rel Like (entries.find? name) (others.find? name)) →
      Like (.table traits entries) (.table other others)

/-- Tables with items under the same names that are like each other. -/
def Entries.Like (entries others : Entries) : Prop :=
  ∀ name, Option.Rel Item.Like (entries.find? name) (others.find? name)

section Items

variable {item other : Item} {entries others : Entries} {path : List String}

theorem Entries.Like.refl (entries : Entries) : entries.Like entries := by
  intro name
  cases entries.find? name with
  | none => exact .none
  | some item => exact .some (.refl item)

theorem Item.Like.isText_iff (h : item.Like other) (value : String) :
    item.IsText value ↔ other.IsText value := by
  cases h with
  | refl => rfl
  | scalar => simp [Item.IsText]
  | array | braces | table => simp [Item.IsText]

theorem Item.Like.isBool_iff (h : item.Like other) (value : Bool) :
    item.IsBool value ↔ other.IsBool value := by
  cases h with
  | refl => rfl
  | scalar => simp [Item.IsBool]
  | array | braces | table => simp [Item.IsBool]

theorem Item.Like.isTexts_iff (h : item.Like other) (values : List String) :
    item.IsTexts values ↔ other.IsTexts values := by
  cases h with
  | refl => rfl
  | scalar | braces | table => simp [Item.IsTexts]
  | @array items others span place hall =>
      have hforall : List.Forall₂ Item.IsText items values ↔
          List.Forall₂ Item.IsText others values := by
        induction hall generalizing values with
        | nil => rfl
        | cons hfirst _ ih =>
            cases values with
            | nil => simp
            | cons value values =>
                rw [List.forall₂_cons, List.forall₂_cons, hfirst.isText_iff, ih]
      simp [Item.IsTexts, hforall]

/-- Items that are like each other are tables with entries that are, or no tables. -/
theorem Item.Like.entries? (h : item.Like other) :
    Option.Rel Entries.Like item.entries? other.entries? := by
  cases h with
  | refl =>
      cases item.entries? with
      | none => exact .none
      | some entries => exact .some (.refl entries)
  | scalar | array => exact .none
  | braces hentries => exact .some hentries
  | table hentries => exact .some hentries

theorem Item.Like.isTable_iff (h : item.Like other) : item.IsTable ↔ other.IsTable := by
  have hentries := h.entries?
  rw [Item.IsTable, Item.IsTable]
  generalize item.entries? = found, other.entries? = found' at hentries
  cases hentries with
  | none => simp
  | some => simp

/-- Values with the same entries in another order are the same to a reader. -/
theorem Item.Like.resembles (h : item.Like other) : item.Resembles other where
  table := h.isTable_iff
  text := h.isText_iff
  bool := h.isBool_iff
  texts := h.isTexts_iff

theorem rel_mono {α : Type} {r q : α → α → Prop} {x y : Option α} (h : Option.Rel r x y)
    (himp : ∀ a b, r a b → q a b) : Option.Rel q x y := by
  cases h with
  | none => exact .none
  | some hr => exact .some (himp _ _ hr)

theorem rel_bind {α β : Type} {r : α → α → Prop} {q : β → β → Prop} {x y : Option α}
    {f g : α → Option β} (h : Option.Rel r x y) (hbind : ∀ a b, r a b → Option.Rel q (f a) (g b)) :
    Option.Rel q (x.bind f) (y.bind g) := by
  cases h with
  | none => exact .none
  | some hr => exact hbind _ _ hr

/-- Tables with the same entries in another order have the same items at every path. -/
theorem Entries.Like.resemble (h : entries.Like others) (path : List String) :
    Resemble (entries.item? path) (others.item? path) := by
  induction path generalizing entries others with
  | nil => exact .none
  | cons name path ih =>
      cases path with
      | nil =>
          rw [item?_singleton, item?_singleton]
          exact rel_mono (h name) fun item other hlike => hlike.resembles
      | cons next path =>
          rw [item?_cons_cons, item?_cons_cons]
          exact rel_bind (h name) fun item other hlike =>
            rel_bind hlike.entries? fun inner inner' hinner => ih hinner

end Items

section Views

/-- The same kind of table, or values that are in a relation. -/
inductive View.Both (r : Item → Item → Prop) : View → View → Prop
  | table : Both r .table .table
  | tables : Both r .tables .tables
  | value {item other : Item} : r item other → Both r (.value item) (.value other)

/-- The same kind of table, or values that are like each other. -/
abbrev View.Like : View → View → Prop :=
  View.Both Item.Like

/-- Documents that show the same. -/
def Entries.Alike (entries others : Entries) : Prop :=
  ∀ path, Option.Rel View.Like (entries.view path) (others.view path)

variable {entries others : Entries} {name : String} {item other : Item}

/-- What stands under a name in documents that show the same. -/
inductive Item.Alike : Item → Item → Prop
  | table {traits other : Traits} {entries others : Entries} :
      entries.Alike others → Alike (.table traits entries) (.table other others)
  | tables {elements others : List (Traits × Entries)} : Alike (.tables elements) (.tables others)
  | value {item other : Item} : item.Like other → Alike item other

theorem Entries.view_singleton (entries : Entries) (name : String) :
    entries.view [name] = (entries.find? name).map Item.view := by
  rw [view]
  cases entries.find? name with
  | none => rfl
  | some item => cases item <;> rfl

/-- Two items that look alike from their tables. -/
theorem Item.view_like (h : item.view.Like other.view) :
    (∃ traits inner traits' inner', item = .table traits inner ∧ other = .table traits' inner') ∨
      (∃ elements elements', item = .tables elements ∧ other = .tables elements') ∨
      item.Like other := by
  cases item with
  | table traits inner =>
      cases other with
      | table traits' inner' => exact .inl ⟨traits, inner, traits', inner', rfl, rfl⟩
      | _ => cases h
  | tables elements =>
      cases other with
      | tables elements' => exact .inr (.inl ⟨elements, elements', rfl, rfl⟩)
      | _ => cases h
  | _ =>
      cases other with
      | table | tables => cases h
      | _ =>
          obtain _ | _ | hlike := h
          exact .inr (.inr hlike)

theorem Entries.Alike.find? (h : entries.Alike others) (name : String) :
    Option.Rel Item.Alike (entries.find? name) (others.find? name) := by
  have hname := h [name]
  rw [view_singleton, view_singleton] at hname
  cases hfound : entries.find? name with
  | none =>
      cases hother : others.find? name with
      | none => exact .none
      | some other =>
          rw [hfound, hother] at hname
          cases hname
  | some item =>
      cases hother : others.find? name with
      | none =>
          rw [hfound, hother] at hname
          cases hname
      | some other =>
          rw [hfound, hother] at hname
          have hview : item.view.Like other.view := by
            cases hname
            assumption
          obtain ⟨_, _, _, _, rfl, rfl⟩ | ⟨_, _, rfl, rfl⟩ | hlike := Item.view_like hview
          · refine .some (.table fun path => ?_)
            have hpath := h (name :: path)
            rwa [view_of_table hfound, view_of_table hother] at hpath
          · exact .some .tables
          · exact .some (.value hlike)

theorem Item.Alike.resembles (h : item.Alike other) : item.Resembles other := by
  cases h with
  | table => constructor <;> simp [IsTable, IsText, IsBool, IsTexts, entries?]
  | tables => constructor <;> simp [IsTable, IsText, IsBool, IsTexts, entries?]
  | value hlike => exact hlike.resembles

/-- Documents that show the same have the same items at every path. -/
theorem Entries.Alike.resemble (h : entries.Alike others) (path : List String) :
    Resemble (entries.item? path) (others.item? path) := by
  induction path generalizing entries others with
  | nil => exact .none
  | cons name path ih =>
      cases path with
      | nil =>
          rw [item?_singleton, item?_singleton]
          exact rel_mono (h.find? name) fun item other halike => halike.resembles
      | cons next path =>
          rw [item?_cons_cons, item?_cons_cons]
          refine rel_bind (h.find? name) fun item other halike => ?_
          cases halike with
          | table halike => exact ih halike
          | tables => exact .none
          | value hlike => exact rel_bind hlike.entries? fun inner inner' hinner =>
              hinner.resemble (next :: path)

end Views

section Rewriting

/-- Two mentions of one place, with values that are in a relation. -/
structure Mention.Both (r : Item → Item → Prop) (mention other : Mention) : Prop where
  path : mention.path = other.path
  view : View.Both r mention.view other.view

/-- Each place that one document mentions, the other mentions alike, in any order. -/
structure Rewrites (statements others : List Statement) : Prop where
  kept : ∀ mention ∈ mentions [] statements, ∃ other ∈ mentions [] others,
    mention.Both Item.Like other
  nothing_new : ∀ other ∈ mentions [] others, ∃ mention ∈ mentions [] statements,
    mention.Both Item.Like other

/-- What is mentioned without the places in the text, unless it is a value with others in it. -/
def Mention.plain? : Mention → Option (List String × (Bool ⊕ Scalar))
  | ⟨path, .table⟩ => some (path, .inl true)
  | ⟨path, .tables⟩ => some (path, .inl false)
  | ⟨path, .value (.scalar value _)⟩ => some (path, .inr value)
  | ⟨_, .value _⟩ => none

theorem Mention.plain?_eq_some_iff {mention : Mention} {path : List String}
    {plain : Bool ⊕ Scalar} :
    mention.plain? = some (path, plain) ↔ mention.path = path ∧
      (mention.view = .table ∧ plain = .inl true ∨ mention.view = .tables ∧ plain = .inl false ∨
        ∃ value span, mention.view = .value (.scalar value span) ∧ plain = .inr value) := by
  obtain ⟨place, view⟩ := mention
  cases view with
  | table => simp [plain?, eq_comm]
  | tables => simp [plain?, eq_comm]
  | value item => cases item <;> simp [plain?, eq_comm]

theorem Mention.both_of_plain? {mention other : Mention} {plain : List String × (Bool ⊕ Scalar)}
    (h : mention.plain? = some plain) (h' : other.plain? = some plain) :
    mention.Both Item.Like other := by
  obtain ⟨path, plain⟩ := plain
  obtain ⟨hpath, hview⟩ := plain?_eq_some_iff.1 h
  obtain ⟨hpath', hview'⟩ := plain?_eq_some_iff.1 h'
  refine ⟨hpath.trans hpath'.symm, ?_⟩
  obtain ⟨hview, rfl⟩ | ⟨hview, rfl⟩ | ⟨value, span, hview, rfl⟩ := hview <;>
    obtain ⟨hview', hplain⟩ | ⟨hview', hplain⟩ | ⟨value', span', hview', hplain⟩ := hview' <;>
    cases hplain
  · rw [hview, hview']
    exact .table
  · rw [hview, hview']
    exact .tables
  · rw [hview, hview']
    exact .value .scalar

theorem exists_mem_of_plain? {said others : List Mention}
    {plain plain' : List (List String × (Bool ⊕ Scalar))}
    (h : said.map Mention.plain? = plain.map some)
    (h' : others.map Mention.plain? = plain'.map some)
    (hsubset : plain ⊆ plain') {mention : Mention} (hmem : mention ∈ said) :
    ∃ other ∈ others, ∃ found, mention.plain? = some found ∧ other.plain? = some found := by
  have hplain : mention.plain? ∈ plain.map some := h ▸ List.mem_map_of_mem hmem
  obtain ⟨found, hfound, heq⟩ := List.mem_map.1 hplain
  have hother : some found ∈ others.map Mention.plain? := h' ▸ List.mem_map_of_mem (hsubset hfound)
  obtain ⟨other, hmem', heq'⟩ := List.mem_map.1 hother
  exact ⟨other, hmem', found, heq.symm, heq'⟩

/-- The same plain mentions in any order are a rewriting. -/
theorem Rewrites.of_plain? {statements others : List Statement}
    {plain plain' : List (List String × (Bool ⊕ Scalar))}
    (h : (mentions [] statements).map Mention.plain? = plain.map some)
    (h' : (mentions [] others).map Mention.plain? = plain'.map some)
    (hperm : plain.Perm plain') : Rewrites statements others where
  kept _ hmem := by
    obtain ⟨other, hother, found, hfound, hfound'⟩ := exists_mem_of_plain? h h' hperm.subset hmem
    exact ⟨other, hother, Mention.both_of_plain? hfound hfound'⟩
  nothing_new _ hmem := by
    obtain ⟨mention, hmention, found, hfound, hfound'⟩ :=
      exists_mem_of_plain? h' h hperm.symm.subset hmem
    exact ⟨mention, hmention, Mention.both_of_plain? hfound' hfound⟩

variable {r : Item → Item → Prop} {said others : List Mention} {path : List String} {view : View}

theorem View.Both.flip {other : View} (h : View.Both r view other) :
    View.Both (flip r) other view := by
  cases h with
  | table => exact .table
  | tables => exact .tables
  | value hr => exact .value hr

theorem Mention.Both.flip {mention other : Mention} (h : mention.Both r other) :
    other.Both (flip r) mention :=
  ⟨h.path.symm, h.view.flip⟩

section Kept

variable (hkept : ∀ mention ∈ said, ∃ other ∈ others, mention.Both r other)

include hkept

theorem hidden_of_kept (h : Hidden said path) : Hidden others path := by
  obtain ⟨⟨front, _⟩, hmem, rfl, habove⟩ := h
  obtain ⟨⟨_, _⟩, hother, rfl, hview⟩ := hkept _ hmem
  cases hview
  exact ⟨_, hother, rfl, habove⟩

theorem opened_of_kept (h : Opened said path) : Opened others path := by
  refine h.imp_right ?_
  rintro ⟨⟨_, _⟩, hmem, ⟨rfl, rfl⟩ | habove⟩
  · obtain ⟨⟨_, _⟩, hother, rfl, hview⟩ := hkept _ hmem
    cases hview
    exact ⟨_, hother, .inl ⟨rfl, rfl⟩⟩
  · obtain ⟨other, hother, hboth⟩ := hkept _ hmem
    exact ⟨other, hother, .inr (hboth.path ▸ habove)⟩

theorem exists_mem_of_kept (h : ⟨path, view⟩ ∈ said) :
    ∃ other, ⟨path, other⟩ ∈ others ∧ View.Both r view other := by
  obtain ⟨⟨_, other⟩, hother, rfl, hview⟩ := hkept _ h
  exact ⟨other, hother, hview⟩

/-- The same is seen after the same was mentioned. -/
theorem exists_shows_of_kept
    (hback : ∀ other ∈ others, ∃ mention ∈ said, other.Both (flip r) mention)
    (h : Shows said path view) : ∃ other, Shows others path other ∧ View.Both r view other := by
  obtain ⟨hclear, hmakes⟩ := h
  have hclear' : ¬ Hidden others path := fun hhidden => hclear (hidden_of_kept hback hhidden)
  cases view with
  | table =>
      refine ⟨.table, ⟨hclear', opened_of_kept hkept hmakes.1, fun hmem => hmakes.2 ?_⟩, .table⟩
      obtain ⟨_, hold, hview⟩ := exists_mem_of_kept hback hmem
      cases hview
      exact hold
  | tables =>
      obtain ⟨_, hmem, hview⟩ := exists_mem_of_kept hkept hmakes
      cases hview
      exact ⟨.tables, ⟨hclear', hmem⟩, .tables⟩
  | value item =>
      obtain ⟨_, hmem, hview⟩ := exists_mem_of_kept hkept hmakes
      cases hview with
      | @value _ other hr => exact ⟨.value other, ⟨hclear', hmem⟩, .value hr⟩

end Kept

variable {statements others : List Statement} {entries inner : Entries}

/-- Rewritten documents show the same. -/
theorem alike_of_rewrites (h : Rewrites statements others)
    (hstatements : ∀ statement ∈ statements, statement.Written)
    (hothers : ∀ statement ∈ others, statement.Written)
    (hassemble : assemble statements = some entries) (hassemble' : assemble others = some inner) :
    entries.Alike inner := by
  intro path
  have hback : ∀ other ∈ mentions [] others, ∃ mention ∈ mentions [] statements,
      other.Both (flip Item.Like) mention := by
    intro other hmem
    obtain ⟨mention, hmention, hboth⟩ := h.nothing_new other hmem
    exact ⟨mention, hmention, hboth.flip⟩
  have hshows := view_eq_some_iff hstatements hassemble path
  have hshows' := view_eq_some_iff hothers hassemble' path
  cases hview : entries.view path with
  | some view =>
      obtain ⟨other, hother, hboth⟩ := exists_shows_of_kept h.kept hback ((hshows view).1 hview)
      rw [(hshows' other).2 hother]
      exact .some hboth
  | none =>
      cases hother : inner.view path with
      | none => exact .none
      | some other =>
          obtain ⟨view, hold, -⟩ := exists_shows_of_kept hback h.kept ((hshows' other).1 hother)
          rw [(hshows view).2 hold] at hview
          cases hview

/-- Rewritten documents have the same items at every path. -/
theorem resemble_of_rewrites {text other : String} (h : Rewrites statements others)
    (hstatements : statements? text = some statements) (hothers : statements? other = some others)
    (hentries : entries? text = some entries) (hentries' : entries? other = some inner)
    (path : List String) : Resemble (entries.item? path) (inner.item? path) := by
  have hassemble : assemble statements = some entries := by
    rw [entries?, hstatements] at hentries
    exact hentries
  have hassemble' : assemble others = some inner := by
    rw [entries?, hothers] at hentries'
    exact hentries'
  exact (alike_of_rewrites h (written_statements? hstatements) (written_statements? hothers)
    hassemble hassemble').resemble path

end Rewriting

end Toml
end CodeSmells
