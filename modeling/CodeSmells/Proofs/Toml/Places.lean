import CodeSmells.Proofs.Toml.Scanning

/-!
# What stands at the places of a document

At a path of names there is a table, an array of tables or a value.  A change at the
end of a path is seen there, with tables on the way to it, and nowhere else, unless
an array of tables on the way hides it.

**Results.**

* `view_eq_none_of_prefix`: nothing stands below a place where nothing stands.
* `grows_at`: a change at the end of a path shows there.
* `grows_openTable`, `grows_openElement`, `grows_assignPath`: what headers and assignments show.
-/

namespace CodeSmells
namespace Toml

section Above

variable {front path : List String} {name : String}

/-- A path leads to a place and on from there. -/
def Above (front path : List String) : Prop :=
  front <+: path ∧ front ≠ path

theorem above_nil_cons : Above [] (name :: path) :=
  ⟨List.nil_prefix, (List.cons_ne_nil name path).symm⟩

theorem not_above_nil : ¬ Above front [] :=
  fun h => h.2 (List.prefix_nil.1 h.1)

theorem above_cons_cons {other : String} :
    Above (other :: front) (name :: path) ↔ other = name ∧ Above front path := by
  rw [Above, Above, List.cons_prefix_cons]
  constructor
  · rintro ⟨⟨rfl, hbegins⟩, hne⟩
    exact ⟨rfl, hbegins, fun heq => hne (heq ▸ rfl)⟩
  · rintro ⟨rfl, hbegins, hne⟩
    exact ⟨⟨rfl, hbegins⟩, fun heq => hne (List.cons.inj heq).2⟩

theorem Above.length_lt (h : Above front path) : front.length < path.length :=
  Nat.lt_of_le_of_ne h.1.length_le fun heq => h.2 (h.1.eq_of_length heq)

theorem Above.trans {middle : List String} (h : Above front middle) (h' : middle <+: path) :
    Above front path := by
  refine ⟨h.1.trans h', ?_⟩
  rintro rfl
  exact h.2 (h.1.eq_of_length_le h'.length_le)

end Above

/-- What stands at a place. -/
inductive View where
  | table
  | tables
  | value (item : Item)

/-- How an item is seen from its table. -/
def Item.view : Item → View
  | .table _ _ => .table
  | .tables _ => .tables
  | item => .value item

/-- What stands at a path of names through tables that can grow. -/
def Entries.view : Entries → List String → Option View
  | _, [] => some .table
  | entries, name :: path =>
      match entries.find? name with
      | none => none
      | some (.table _ inner) => view inner path
      | some item => if path = [] then some item.view else none

section Views

variable {entries inner before after : Entries} {name : String} {path front : List String}
  {traits : Traits} {item : Item}

theorem Entries.view_of_none (h : entries.find? name = none) :
    entries.view (name :: path) = none := by
  rw [view, h]

theorem Entries.view_of_table (h : entries.find? name = some (.table traits inner)) :
    entries.view (name :: path) = inner.view path := by
  rw [view, h]

theorem Entries.view_of_tables {elements : List (Traits × Entries)}
    (h : entries.find? name = some (.tables elements)) :
    entries.view (name :: path) = if path = [] then some .tables else none := by
  rw [view, h]
  rfl

theorem Entries.view_of_value (h : entries.find? name = some item) (hvalue : item.IsValue) :
    entries.view (name :: path) = if path = [] then some (.value item) else none := by
  rw [view, h]
  cases item with
  | table | tables => cases hvalue
  | scalar | array | braces => rfl

theorem Entries.view_congr (h : after.find? name = before.find? name) :
    after.view (name :: path) = before.view (name :: path) := by
  rw [view, view, h]

/-- Nothing stands below a place where nothing stands. -/
theorem Entries.view_eq_none_of_prefix (h : entries.view front = none) (hbegins : front <+: path) :
    entries.view path = none := by
  induction front generalizing entries path with
  | nil => cases h
  | cons name front ih =>
      obtain ⟨rest, rfl⟩ := hbegins
      rw [List.cons_append, view] at *
      split at h
      next hnone => rfl
      next htable => exact ih h ⟨rest, rfl⟩
      next =>
        split_ifs at h with hfront
        rw [if_neg (by simp [hfront])]

theorem Entries.view_nil (path : List String) :
    Entries.view [] path = if path = [] then some .table else none := by
  cases path <;> rfl

end Views

/-- Something can come to stand at a place: more of a table or of an array of tables, but no
second value. -/
def View.Fits (view : View) (old : Option View) : Prop :=
  old = none ∨ old = some view ∧ ∀ item, view ≠ .value item

/-- A change that makes a place show something, if no array of tables on the way hides it. -/
inductive Grows (path : List String) (view : View) (before after : Entries) : Prop
  | hidden (front : List String) : Above front path → before.view front = some .tables →
      (∀ other, after.view other = before.view other) → Grows path view before after
  | written :
      (∀ front, Above front path → View.Fits .table (before.view front) ∧
        after.view front = some .table) →
      view.Fits (before.view path) → after.view path = some view →
      (∀ other, ¬ other <+: path → after.view other = before.view other) →
      Grows path view before after

section Changes

variable {before after inner changed : Entries} {view : View} {name : String} {path : List String}

theorem fits_table_none : View.Fits .table none :=
  .inl rfl

theorem fits_table_table : View.Fits .table (some .table) :=
  .inr ⟨rfl, nofun⟩

theorem fits_tables_tables : View.Fits .tables (some .tables) :=
  .inr ⟨rfl, nofun⟩

/-- A change of one entry of a table. -/
theorem grows_single (hplace : view.Fits (before.view [name]))
    (hafter : after.view [name] = some view)
    (hbelow : ∀ path ≠ [], after.view (name :: path) = before.view (name :: path))
    (hother : ∀ other ≠ name, after.find? other = before.find? other) :
    Grows [name] view before after := by
  refine .written (fun front hfront => ?_) hplace hafter fun other hnot => ?_
  · cases front with
    | nil => exact ⟨fits_table_table, rfl⟩
    | cons next front => exact absurd (above_cons_cons.1 hfront).2 not_above_nil
  · cases other with
    | nil => exact absurd List.nil_prefix hnot
    | cons next other =>
        by_cases hname : next = name
        · subst hname
          refine hbelow other ?_
          rintro rfl
          exact hnot List.prefix_rfl
        · exact Entries.view_congr (hother next hname)

/-- A change of a table is one of the table that it stands in. -/
theorem Grows.cons (hpath : path ≠ []) (h : Grows path view inner changed)
    (hhere : View.Fits .table (before.view [name]))
    (hbefore : ∀ path ≠ [], before.view (name :: path) = inner.view path)
    (hafter : ∀ path, after.view (name :: path) = changed.view path)
    (hother : ∀ other ≠ name, after.find? other = before.find? other) :
    Grows (name :: path) view before after := by
  cases h with
  | hidden front hfront htables hsame =>
      have hsome : front ≠ [] := by
        rintro rfl
        cases htables
      have hbelow : before.view (name :: front) = some .tables :=
        (hbefore front hsome).trans htables
      refine .hidden (name :: front) (above_cons_cons.2 ⟨rfl, hfront⟩) hbelow fun other => ?_
      cases other with
      | nil => rfl
      | cons next other =>
          by_cases hname : next = name
          · subst hname
            rw [hafter, hsame]
            by_cases hnil : other = []
            · subst hnil
              -- The table was there before, since something stands below it.
              obtain hnone | ⟨htable, -⟩ := hhere
              · have hnothing : before.view (next :: front) = none :=
                  Entries.view_eq_none_of_prefix hnone ⟨front, rfl⟩
                rw [hnothing] at hbelow
                cases hbelow
              · exact htable.symm
            · exact (hbefore other hnil).symm
          · exact Entries.view_congr (hother next hname)
  | written hfronts hplace hshown hsame =>
      refine .written (fun front hfront => ?_) ?_ ((hafter path).trans hshown) fun other hnot => ?_
      · cases front with
        | nil => exact ⟨fits_table_table, rfl⟩
        | cons next front =>
            obtain ⟨rfl, habove⟩ := above_cons_cons.1 hfront
            rw [hafter]
            refine ⟨?_, (hfronts front habove).2⟩
            by_cases hnil : front = []
            · rw [hnil]
              exact hhere
            · rw [hbefore front hnil]
              exact (hfronts front habove).1
      · rw [hbefore path hpath]
        exact hplace
      · cases other with
        | nil => exact absurd List.nil_prefix hnot
        | cons next other =>
            by_cases hname : next = name
            · subst hname
              have hnot' : ¬ other <+: path := fun h => hnot (List.cons_prefix_cons.2 ⟨rfl, h⟩)
              rw [hafter, hsame other hnot', hbefore]
              rintro rfl
              exact hnot' List.nil_prefix
            · exact Entries.view_congr (hother next hname)

theorem find?_append_other {entries : Entries} {key : Key} {item : Item} {other : String}
    (h : other ≠ key.name) :
    Entries.find? other (entries ++ [(key, item)]) = entries.find? other := by
  rw [Entries.find?_append, if_neg h.symm, Option.or_none]

theorem find?_replace_other {entries : Entries} {item : Item} {other : String}
    (h : other ≠ name) : (entries.replace name item).find? other = entries.find? other := by
  rw [Entries.find?_replace, if_neg h.symm]

theorem find?_append_self {entries : Entries} {key : Key} (item : Item)
    (h : entries.find? key.name = none) :
    Entries.find? key.name (entries ++ [(key, item)]) = some item := by
  rw [Entries.find?_append, h, if_pos rfl]
  rfl

theorem find?_replace_self {entries : Entries} {old : Item} (item : Item)
    (h : entries.find? name = some old) :
    (entries.replace name item).find? name = some item := by
  rw [Entries.find?_replace, if_pos rfl, h]
  rfl

/-- The names of a path. -/
def names (path : List Key) : List String :=
  path.map Key.name

/-- A change at the end of a path shows at the end of the path. -/
theorem grows_at {change : Body → Option Body}
    (hchange : ∀ body next, change body = some next →
      path ≠ [] ∧ Grows path view body.entries next.entries)
    (dotted : Bool) (way : List Key) {body next : Body}
    (h : Body.at dotted change way body = some next) :
    names way ++ path ≠ [] ∧ Grows (names way ++ path) view body.entries next.entries := by
  induction way generalizing body next with
  | nil => exact hchange body next h
  | cons key way ih =>
      refine ⟨List.cons_ne_nil _ _, ?_⟩
      rw [Body.at] at h
      split at h
      next hnone =>
        obtain ⟨inner, hinner, heq⟩ := Option.bind_eq_some_iff.1 h
        cases heq
        obtain ⟨hsome, hgrows⟩ := ih hinner
        refine hgrows.cons hsome ?_ (fun path hpath => ?_) (fun path => ?_) fun other hne => ?_
        · rw [Entries.view_of_none hnone]
          exact fits_table_none
        · rw [Entries.view_of_none hnone, Entries.view_nil, if_neg hpath]
        · exact Entries.view_of_table (find?_append_self _ hnone)
        · exact find?_append_other hne
      next traits entries hfound =>
        split at h
        · cases h
        · obtain ⟨inner, hinner, heq⟩ := Option.bind_eq_some_iff.1 h
          cases heq
          obtain ⟨hsome, hgrows⟩ := ih hinner
          refine hgrows.cons hsome ?_ (fun path _ => ?_) (fun path => ?_) fun other hne => ?_
          · rw [Entries.view_of_table hfound]
            exact fits_table_table
          · exact Entries.view_of_table hfound
          · exact Entries.view_of_table (find?_replace_self _ hfound)
          · exact find?_replace_other hne
      next elements hfound =>
        obtain ⟨last, hlast, hrest⟩ := Option.bind_eq_some_iff.1 h
        obtain ⟨inner, hinner, heq⟩ := Option.bind_eq_some_iff.1 hrest
        cases heq
        refine .hidden [key.name] ?_ ?_ fun other => ?_
        · obtain ⟨next, rest, heq⟩ := List.exists_cons_of_ne_nil (ih hinner).1
          rw [names, List.map_cons, List.cons_append, ← names, heq]
          exact above_cons_cons.2 ⟨rfl, above_nil_cons⟩
        · rw [Entries.view_of_tables hfound, if_pos rfl]
        · cases other with
          | nil => rfl
          | cons next other =>
              by_cases hname : next = key.name
              · subst hname
                rw [Entries.view_of_tables hfound,
                  Entries.view_of_tables (find?_replace_self _ hfound)]
              · exact Entries.view_congr (find?_replace_other hname)
      next => cases h

/-- A header makes a table. -/
theorem grows_openTable {key : Key} {span : Span} {body next : Body}
    (h : openTable key span body = some next) :
    Grows [key.name] .table body.entries next.entries := by
  rw [openTable] at h
  split at h
  next hnone =>
    cases h
    have hadded := find?_append_self (.table ⟨false, false, some span⟩ []) hnone
    refine grows_single ?_ (Entries.view_of_table hadded) (fun path hpath => ?_)
      fun other hne => find?_append_other hne
    · rw [Entries.view_of_none hnone]
      exact fits_table_none
    · rw [Entries.view_of_table hadded, Entries.view_of_none hnone, Entries.view_nil, if_neg hpath]
  next old entries hfound =>
    split at h
    · cases h
      have hnone : (body.entries.remove key.name).find? key.name = none := by
        rw [Entries.find?_remove, if_pos rfl]
      have hadded := find?_append_self (.table ⟨false, false, some span⟩ entries) hnone
      refine grows_single ?_ (Entries.view_of_table hadded) (fun path _ => ?_) fun other hne => ?_
      · rw [Entries.view_of_table hfound]
        exact fits_table_table
      · rw [Entries.view_of_table hadded, Entries.view_of_table hfound]
      · rw [find?_append_other hne, Entries.find?_remove, if_neg hne.symm]
    · cases h
  next => cases h

/-- A header in double brackets makes one more table of an array of tables. -/
theorem grows_openElement {key : Key} {span : Span} {body next : Body}
    (h : openElement key span body = some next) :
    Grows [key.name] .tables body.entries next.entries := by
  rw [openElement] at h
  split at h
  next hnone =>
    cases h
    have hadded := find?_append_self
      (.tables [((⟨false, false, some span⟩ : Traits), ([] : Entries))]) hnone
    refine grows_single ?_ ?_ (fun path hpath => ?_) fun other hne => find?_append_other hne
    · exact .inl (Entries.view_of_none hnone)
    · rw [Entries.view_of_tables hadded, if_pos rfl]
    · rw [Entries.view_of_tables hadded, Entries.view_of_none hnone, if_neg hpath]
  next elements hfound =>
    cases h
    have hadded := find?_replace_self
      (.tables (elements ++ [((⟨false, false, some span⟩ : Traits), ([] : Entries))])) hfound
    refine grows_single ?_ ?_ (fun path _ => ?_) fun other hne => find?_replace_other hne
    · rw [Entries.view_of_tables hfound, if_pos rfl]
      exact fits_tables_tables
    · rw [Entries.view_of_tables hadded, if_pos rfl]
    · rw [Entries.view_of_tables hadded, Entries.view_of_tables hfound]
  next => cases h

variable {item : Item}

/-- An assignment makes a value where nothing stood. -/
theorem grows_assignKey {underDots : Bool} {key : Key} {body next : Body} (hvalue : item.IsValue)
    (h : assignKey underDots key item body = some next) :
    Grows [key.name] (.value item) body.entries next.entries := by
  rw [assignKey] at h
  split_ifs at h with _ hfound
  cases h
  have hnone := Option.not_isSome_iff_eq_none.1 hfound
  have hadded := find?_append_self item hnone
  refine grows_single ?_ ?_ (fun path hpath => ?_) fun other hne => find?_append_other hne
  · exact .inl (Entries.view_of_none hnone)
  · rw [Entries.view_of_value hadded hvalue, if_pos rfl]
  · rw [Entries.view_of_value hadded hvalue, Entries.view_of_none hnone, if_neg hpath]

theorem splitPath_eq_some_iff {path way : List Key} {key : Key} :
    splitPath path = some (way, key) ↔ path = way ++ [key] := by
  rw [splitPath, Option.map_eq_some_iff]
  constructor
  · rintro ⟨last, hlast, heq⟩
    cases heq
    exact (List.dropLast_append_getLast? _ hlast).symm
  · rintro rfl
    exact ⟨key, by simp, by simp⟩

theorem grows_assignPath {path : List Key} {body next : Body} (hvalue : item.IsValue)
    (h : assignPath path item body = some next) :
    path ≠ [] ∧ Grows (names path) (.value item) body.entries next.entries := by
  obtain ⟨⟨way, key⟩, hsplit, hat⟩ := Option.bind_eq_some_iff.1 h
  obtain rfl := splitPath_eq_some_iff.1 hsplit
  rw [names, List.map_append, List.map_singleton, ← names]
  refine ⟨by simp, (grows_at (fun body next hnext => ?_) true way hat).2⟩
  exact ⟨List.cons_ne_nil _ _, grows_assignKey hvalue hnext⟩

end Changes

end Toml
end CodeSmells
