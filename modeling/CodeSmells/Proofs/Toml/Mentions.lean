import CodeSmells.Proofs.Toml.Places

/-!
# What the statements of a document mention

Each statement of a document mentions one place, as a table, as one more table of an
array of tables, or as a value.  What the document shows at a place in the end follows
from all that is mentioned in it, whatever the order.

**Results.**

* `grows_step`: what a statement mentions is seen.
* `shows_of_grows`: it is seen together with what was mentioned before.
* `view_eq_some_iff`: a document shows what its statements mention.
-/

namespace CodeSmells
namespace Toml

section Mentions

/-- What a statement says of a place. -/
structure Mention where
  path : List String
  view : View

/-- What statements mention, in order, under the header that is open. -/
def mentions (current : List Key) : List Statement → List Mention
  | [] => []
  | .header path _ :: rest => ⟨names path, .table⟩ :: mentions path rest
  | .arrayHeader path _ :: rest => ⟨names path, .tables⟩ :: mentions path rest
  | .assign path item :: rest =>
      ⟨names (current ++ path), .value item⟩ :: mentions current rest

/-- Each statement shows what it mentions. -/
theorem grows_step {assembly next : Assembly} {statement : Statement}
    (hwritten : statement.Written) (h : assembly.step statement = some next)
    (rest : List Statement) :
    ∃ mention, mentions assembly.current (statement :: rest) =
        mention :: mentions next.current rest ∧
      Grows mention.path mention.view assembly.root.entries next.root.entries := by
  cases statement with
  | header path span =>
      obtain ⟨⟨way, key⟩, hsplit, hrest⟩ := Option.bind_eq_some_iff.1 h
      obtain ⟨root, hat, heq⟩ := Option.bind_eq_some_iff.1 hrest
      cases heq
      obtain rfl := splitPath_eq_some_iff.1 hsplit
      refine ⟨_, rfl, ?_⟩
      rw [names, List.map_append, List.map_singleton]
      refine (grows_at (fun body next hnext => ?_) false way hat).2
      exact ⟨List.cons_ne_nil _ _, grows_openTable hnext⟩
  | arrayHeader path span =>
      obtain ⟨⟨way, key⟩, hsplit, hrest⟩ := Option.bind_eq_some_iff.1 h
      obtain ⟨root, hat, heq⟩ := Option.bind_eq_some_iff.1 hrest
      cases heq
      obtain rfl := splitPath_eq_some_iff.1 hsplit
      refine ⟨_, rfl, ?_⟩
      rw [names, List.map_append, List.map_singleton]
      refine (grows_at (fun body next hnext => ?_) false way hat).2
      exact ⟨List.cons_ne_nil _ _, grows_openElement hnext⟩
  | assign path item =>
      obtain ⟨root, hat, heq⟩ := Option.bind_eq_some_iff.1 h
      cases heq
      refine ⟨_, rfl, ?_⟩
      rw [names, List.map_append, ← names]
      refine (grows_at (fun body next hnext => ?_) false _ hat).2
      obtain ⟨hpath, hgrows⟩ := grows_assignPath hwritten.2 hnext
      rw [entries_extend] at hgrows
      exact ⟨by simpa using hpath, hgrows⟩

variable {said : List Mention} {mention : Mention} {before after : Entries} {path : List String}
  {view : View}

/-- A place in an array of tables. -/
def Hidden (said : List Mention) (path : List String) : Prop :=
  ∃ mention ∈ said, mention.view = .tables ∧ Above mention.path path

/-- A table that is mentioned, or that another place is in. -/
def Opened (said : List Mention) (path : List String) : Prop :=
  path = [] ∨
    ∃ mention ∈ said, mention.path = path ∧ mention.view = .table ∨ Above path mention.path

/-- What is mentioned of a place. -/
def Makes (said : List Mention) (path : List String) : View → Prop
  | .table => Opened said path ∧ ⟨path, .tables⟩ ∉ said
  | .tables => ⟨path, .tables⟩ ∈ said
  | .value item => ⟨path, .value item⟩ ∈ said

/-- What is to be seen at a place after all that was mentioned. -/
def Shows (said : List Mention) (path : List String) (view : View) : Prop :=
  ¬ Hidden said path ∧ Makes said path view

theorem hidden_concat :
    Hidden (said ++ [mention]) path ↔
      Hidden said path ∨ mention.view = .tables ∧ Above mention.path path := by
  simp [Hidden, or_and_right, exists_or]

theorem opened_concat :
    Opened (said ++ [mention]) path ↔
      Opened said path ∨ mention.path = path ∧ mention.view = .table ∨ Above path mention.path := by
  simp only [Opened, List.mem_append, List.mem_singleton, or_and_right, exists_or, exists_eq_left,
    or_assoc]

theorem mem_concat_iff (hne : mention.path ≠ path) :
    ⟨path, view⟩ ∈ said ++ [mention] ↔ ⟨path, view⟩ ∈ said := by
  rw [List.mem_append, List.mem_singleton, or_iff_left]
  rintro rfl
  exact hne rfl

/-- A mention of another place makes nothing of this one, if this one need not be opened for it. -/
theorem makes_concat (hne : mention.path ≠ path)
    (hopened : Above path mention.path → Opened said path ∨ ⟨path, .tables⟩ ∈ said) :
    Makes (said ++ [mention]) path view ↔ Makes said path view := by
  cases view with
  | table =>
      simp only [Makes, mem_concat_iff hne, opened_concat, hne, false_and, false_or]
      tauto
  | tables => exact mem_concat_iff hne
  | value item => exact mem_concat_iff hne

section Growth

variable (hbefore : ∀ path view, before.view path = some view ↔ Shows said path view)

include hbefore

/-- What is mentioned of a place that is not hidden is to be seen. -/
theorem view_of_makes (hclear : ¬ Hidden said path) (hmakes : Makes said path view) :
    before.view path = some view :=
  (hbefore path view).2 ⟨hclear, hmakes⟩

theorem hidden_of_view {front : List String} (htables : before.view front = some .tables)
    (h : Above front path) : Hidden said path :=
  ⟨⟨front, .tables⟩, ((hbefore front .tables).1 htables).2, rfl, h⟩

/-- The array of tables that hides a place is to be seen. -/
theorem exists_view_of_hidden (h : Hidden said path) :
    ∃ front, Above front path ∧ before.view front = some .tables := by
  induction hlength : path.length using Nat.strongRecOn generalizing path with
  | _ n ih =>
      obtain ⟨mention, hmem, htables, habove⟩ := h
      by_cases hhidden : Hidden said mention.path
      · obtain ⟨front, hfront, hview⟩ := ih _ (hlength ▸ habove.length_lt) hhidden rfl
        exact ⟨front, hfront.trans habove.1, hview⟩
      · refine ⟨mention.path, habove, view_of_makes hbefore hhidden ?_⟩
        rw [Makes, ← htables]
        exact hmem

/-- A mention in an array of tables makes nothing to be seen. -/
theorem shows_concat_of_hidden {front : List String} (habove : Above front mention.path)
    (htables : before.view front = some .tables) :
    Shows (said ++ [mention]) path view ↔ Shows said path view := by
  have hmem : (⟨front, .tables⟩ : Mention) ∈ said := ((hbefore front .tables).1 htables).2
  have hhidden : Hidden (said ++ [mention]) path ↔ Hidden said path := by
    rw [hidden_concat, or_iff_left_iff_imp]
    exact fun h => hidden_of_view hbefore htables (habove.trans h.2.1)
  rw [Shows, Shows, hhidden]
  refine and_congr_right fun hclear => ?_
  have hne : mention.path ≠ path := by
    rintro rfl
    exact hclear (hidden_of_view hbefore htables habove)
  refine makes_concat hne fun hpath => ?_
  -- The place is on the way to the array or below it, or it is the array.
  by_cases heq : path = front
  · exact .inr (heq ▸ hmem)
  · rcases List.prefix_or_prefix_of_prefix hpath.1 habove.1 with hbegins | hbegins
    · exact .inl (.inr ⟨_, hmem, .inr ⟨hbegins, heq⟩⟩)
    · exact absurd (hidden_of_view hbefore htables ⟨hbegins, Ne.symm heq⟩) hclear

/-- Elsewhere the same is to be seen as before. -/
theorem shows_concat_other (hplace : mention.view.Fits (before.view mention.path))
    (hnot : ¬ path <+: mention.path) :
    Shows (said ++ [mention]) path view ↔ Shows said path view := by
  have hmakes : Makes (said ++ [mention]) path view ↔ Makes said path view :=
    makes_concat (fun heq => hnot (heq ▸ List.prefix_rfl)) fun habove => absurd habove.1 hnot
  rw [Shows, Shows, hmakes, hidden_concat, not_or]
  refine ⟨fun h => ⟨h.1.1, h.2⟩, fun h => ⟨⟨h.1, ?_⟩, h.2⟩⟩
  rintro ⟨htables, habove⟩
  obtain hnone | ⟨hsome, -⟩ := hplace
  · have hsome := view_of_makes hbefore h.1 h.2
    rw [Entries.view_eq_none_of_prefix hnone habove.1] at hsome
    cases hsome
  · exact h.1 (hidden_of_view hbefore (htables ▸ hsome) habove)

section Written

variable (hfronts : ∀ front, Above front mention.path → View.Fits .table (before.view front))

include hfronts

/-- Nothing hides a place that is written through tables. -/
theorem not_hidden_of_fronts : ¬ Hidden said mention.path := by
  intro hhidden
  obtain ⟨front, habove, hview⟩ := exists_view_of_hidden hbefore hhidden
  obtain hnone | ⟨htable, -⟩ := hview ▸ hfronts front habove
  · cases hnone
  · cases htable

/-- On the way to what is mentioned there are tables. -/
theorem shows_concat_above {front : List String} (h : Above front mention.path) :
    Shows (said ++ [mention]) front view ↔ view = .table := by
  have hclear : ¬ Hidden said front := by
    rintro ⟨array, hmem, htables, habove⟩
    exact not_hidden_of_fronts hbefore hfronts ⟨array, hmem, htables, habove.trans h.1⟩
  have hne : mention.path ≠ front := h.2.symm
  have hnot (view : View) (hmakes : Makes said front view) : view = .table := by
    obtain hnone | ⟨htable, -⟩ := view_of_makes hbefore hclear hmakes ▸ hfronts front h
    · cases hnone
    · exact Option.some.inj htable
  have hconcat : ¬ Hidden (said ++ [mention]) front := by
    rw [hidden_concat, not_or]
    exact ⟨hclear, fun hhere => absurd h.length_lt (Nat.lt_asymm hhere.2.length_lt)⟩
  rw [Shows, and_iff_right hconcat]
  cases view with
  | table =>
      refine iff_of_true ⟨opened_concat.2 (.inr (.inr h)), fun hmem => ?_⟩ rfl
      cases hnot .tables ((mem_concat_iff hne).1 hmem)
  | tables =>
      refine iff_of_false (fun hmem => ?_) nofun
      cases hnot .tables ((mem_concat_iff hne).1 hmem)
  | value item =>
      refine iff_of_false (fun hmem => ?_) nofun
      cases hnot (.value item) ((mem_concat_iff hne).1 hmem)

variable (hplace : mention.view.Fits (before.view mention.path))

include hplace

/-- What is mentioned is to be seen. -/
theorem shows_concat_self :
    Shows (said ++ [mention]) mention.path view ↔ view = mention.view := by
  have hclear := not_hidden_of_fronts hbefore hfronts
  have hself : ¬ Above mention.path mention.path := fun h => h.2 rfl
  have hold (view : View) (hmakes : Makes said mention.path view) : view = mention.view := by
    obtain hnone | ⟨hsame, -⟩ := view_of_makes hbefore hclear hmakes ▸ hplace
    · cases hnone
    · exact Option.some.inj hsame
  have hconcat : ¬ Hidden (said ++ [mention]) mention.path := by
    rw [hidden_concat, not_or]
    exact ⟨hclear, fun hhere => hself hhere.2⟩
  rw [Shows, and_iff_right hconcat]
  constructor
  · intro hmakes
    cases view with
    | table =>
        obtain hopened | ⟨-, hview⟩ | habove := opened_concat.1 hmakes.1
        · exact hold .table ⟨hopened, fun hmem => hmakes.2 (List.mem_append_left _ hmem)⟩
        · exact hview.symm
        · exact absurd habove hself
    | tables =>
        obtain hmem | hlast := List.mem_append.1 hmakes
        · exact hold .tables hmem
        · exact congrArg Mention.view (List.mem_singleton.1 hlast)
    | value item =>
        obtain hmem | hlast := List.mem_append.1 hmakes
        · exact hold (.value item) hmem
        · exact congrArg Mention.view (List.mem_singleton.1 hlast)
  · rintro rfl
    have hlast : ⟨mention.path, mention.view⟩ ∈ said ++ [mention] :=
      List.mem_append_right said List.mem_cons_self
    cases hview : mention.view with
    | table =>
        refine ⟨opened_concat.2 (.inr (.inl ⟨rfl, hview⟩)), fun hmem => ?_⟩
        obtain hmem | hmem := List.mem_append.1 hmem
        · exact absurd ((hold .tables hmem).trans hview) nofun
        · exact absurd ((congrArg Mention.view (List.mem_singleton.1 hmem)).trans hview) nofun
    | tables =>
        rw [hview] at hlast
        exact hlast
    | value item =>
        rw [hview] at hlast
        exact hlast

end Written

end Growth

/-- After a change the document shows what was mentioned before and what the change mentions. -/
theorem shows_of_grows (hbefore : ∀ path view, before.view path = some view ↔ Shows said path view)
    (h : Grows mention.path mention.view before after) (path : List String) (view : View) :
    after.view path = some view ↔ Shows (said ++ [mention]) path view := by
  cases h with
  | hidden front habove htables hsame =>
      rw [hsame, hbefore, shows_concat_of_hidden hbefore habove htables]
  | written hfronts hplace hafter hsame =>
      have hfits : ∀ front, Above front mention.path → View.Fits .table (before.view front) :=
        fun front habove => (hfronts front habove).1
      by_cases hbegins : path <+: mention.path
      · by_cases hpath : path = mention.path
        · rw [hpath, hafter, shows_concat_self hbefore hfits hplace, Option.some.injEq, eq_comm]
        · have habove : Above path mention.path := ⟨hbegins, hpath⟩
          rw [(hfronts path habove).2, shows_concat_above hbefore hfits habove, Option.some.injEq,
            eq_comm]
      · rw [hsame path hbegins, hbefore, shows_concat_other hbefore hplace hbegins]

/-- An empty document shows what is mentioned in nothing. -/
theorem view_nil_eq_some_iff :
    Entries.view [] path = some view ↔ Shows [] path view := by
  have hclear : ¬ Hidden [] path := by simp [Hidden]
  rw [Entries.view_nil, Shows, and_iff_right hclear]
  cases view <;> simp [Makes, Opened]

/-- A document shows what its statements mention. -/
theorem view_eq_some_iff {statements : List Statement} {entries : Entries}
    (hwritten : ∀ statement ∈ statements, statement.Written)
    (h : assemble statements = some entries) (path : List String) (view : View) :
    entries.view path = some view ↔ Shows (mentions [] statements) path view := by
  have hrun (assembly final : Assembly) (said : List Mention)
      (hsaid : ∀ path view, assembly.root.entries.view path = some view ↔ Shows said path view)
      (hfold : statements.foldlM Assembly.step assembly = some final) :
      ∀ path view, final.root.entries.view path = some view ↔
        Shows (said ++ mentions assembly.current statements) path view := by
    clear h
    induction statements generalizing assembly said with
    | nil =>
        cases hfold
        simpa [mentions] using hsaid
    | cons statement statements ih =>
        obtain ⟨next, hstep, hrest⟩ := Option.bind_eq_some_iff.1 hfold
        obtain ⟨hfirst, hlater⟩ := List.forall_mem_cons.1 hwritten
        obtain ⟨mention, hmentions, hgrows⟩ := grows_step hfirst hstep statements
        rw [hmentions, List.append_cons]
        exact ih hlater next (said ++ [mention]) (shows_of_grows hsaid hgrows) hrest
  obtain ⟨final, hfold, rfl⟩ := Option.map_eq_some_iff.1 h
  exact hrun Assembly.empty final [] (fun path view => view_nil_eq_some_iff) hfold path view

end Mentions

end Toml
end CodeSmells
