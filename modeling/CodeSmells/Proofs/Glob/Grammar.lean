import CodeSmells.Proofs.Glob.Language
import Mathlib.Data.Option.Basic

/-!
# The grammar of glob text

The text of a glob is read item by item from the left.  A step of the grammar
says how one item may be written and what is left to read after it; a defect
says how the text may fail to go on with an item.

**Results.**

* `tokens_of_step`, `tokens_of_defect`: what a reader of glob text makes of each.
* `exists_step_or_defect`: every text that is left has a step or a defect.
* `tokens_eq_some_iff`: the reader finds the tokens of the items that are spelled.
* `not_spells_iff_illFormed`: no items are spelled exactly when a defect comes up.
* `fits_iff_of_spells`, `fits_of_illFormed`: the texts that a pattern fits in either case.
-/

namespace CodeSmells.Glob

/--
`Step edge item text edge' rest` says that `text` starts with `item` and then
goes on with `rest`.  Before and after the item, `edge` and `edge'` say whether
the reader stands at the start or right after a `/`.
-/
inductive Step : Bool → Item → List Char → Bool → List Char → Prop
  | char {edge : Bool} {c : Char} {s : List Char} :
      c ≠ '?' → c ≠ '*' → c ≠ '[' → Step edge (.char c) (c :: s) (c == '/') s
  | anyChar {edge : Bool} {s : List Char} : Step edge .anyChar ('?' :: s) false s
  | sequence {edge : Bool} {s : List Char} :
      (∀ t, s ≠ '*' :: t) → Step edge .sequence ('*' :: s) false s
  | directories {s : List Char} :
      Step true .directories ('*' :: '*' :: '/' :: s) true s
  | lastDirectories : Step true .directories ['*', '*'] true []
  | oneOf {edge : Bool} {first : Char} {set s : List Char} :
      first ≠ '!' → ']' ∉ set →
      Step edge (.oneOf (first :: set)) ('[' :: first :: (set ++ ']' :: s)) false s
  | noneOf {edge : Bool} {first : Char} {set s : List Char} :
      ']' ∉ set →
      Step edge (.noneOf (first :: set)) ('[' :: '!' :: first :: (set ++ ']' :: s)) false s

/-- The text spells the items, one after the other. -/
inductive Spells : Bool → List Item → List Char → Prop
  | nil {edge : Bool} : Spells edge [] []
  | cons {edge edge' : Bool} {item : Item} {items : List Item} {text rest : List Char} :
      Step edge item text edge' rest → Spells edge' items rest →
      Spells edge (item :: items) text

/-- The text after a `[` that no `]` closes; a `]` that comes first is a member. -/
inductive Unclosed : List Char → Prop
  | bare : Unclosed []
  | bareNegation : Unclosed ['!']
  | set {first : Char} {set : List Char} : first ≠ '!' → ']' ∉ set → Unclosed (first :: set)
  | negatedSet {first : Char} {set : List Char} : ']' ∉ set → Unclosed ('!' :: first :: set)

/-- The text cannot start with any item. -/
inductive Defect : Bool → List Char → Prop
  | threeStars {edge : Bool} {s : List Char} : Defect edge ('*' :: '*' :: '*' :: s)
  | starsAfterText {s : List Char} : Defect false ('*' :: '*' :: s)
  | starsBeforeText {edge : Bool} {c : Char} {s : List Char} :
      c ≠ '/' → Defect edge ('*' :: '*' :: c :: s)
  | unclosed {edge : Bool} {s : List Char} : Unclosed s → Defect edge ('[' :: s)

/-- After some items, the text comes to a defect. -/
inductive IllFormed : Bool → List Char → Prop
  | here {edge : Bool} {text : List Char} : Defect edge text → IllFormed edge text
  | later {edge edge' : Bool} {item : Item} {text rest : List Char} :
      Step edge item text edge' rest → IllFormed edge' rest → IllFormed edge text

section Sets

variable {negated : Bool} {read set s : List Char}

/-- The token of a set whose text has been read. -/
def setToken (negated : Bool) (set : List Char) : Token :=
  if negated then .noneOf (Member.ofText set) else .oneOf (Member.ofText set)

/-- A set ends at the next `]`. -/
theorem tokens_inSet_closed (h : ']' ∉ set) :
    tokens? (.inSet negated read) (set ++ ']' :: s) =
      (tokens? (.outside false) s).map (setToken negated (read ++ set) :: ·) := by
  induction set generalizing read with
  | nil =>
      rw [List.nil_append, List.append_nil, tokens?, setToken]
  | cons c set ih =>
      have hne : c ≠ ']' := fun hc => h (by simp [hc])
      have hset : ']' ∉ set := fun hmem => h (List.mem_cons_of_mem c hmem)
      rw [List.cons_append, tokens?, ih hset, List.append_assoc, List.singleton_append]
      exact hne

theorem tokens_inSet_unclosed (h : ']' ∉ set) : tokens? (.inSet negated read) set = none := by
  induction set generalizing read with
  | nil => rw [tokens?]
  | cons c set ih =>
      have hne : c ≠ ']' := fun hc => h (by simp [hc])
      have hset : ']' ∉ set := fun hmem => h (List.mem_cons_of_mem c hmem)
      rw [tokens?, ih hset]
      exact hne

end Sets

section Reader

variable {edge edge' : Bool} {item : Item} {items : List Item} {text rest : List Char}

/-- A step makes one token. -/
theorem tokens_of_step (h : Step edge item text edge' rest) :
    tokens? (.outside edge) text = (tokens? (.outside edge') rest).map (item.token :: ·) := by
  cases h with
  | char hquestion hstar hbracket => cases edge <;> simp [tokens?, Item.token, *]
  | anyChar => simp [tokens?, Item.token]
  | sequence hs =>
      cases rest with
      | nil => cases edge <;> simp [tokens?, Item.token]
      | cons c s =>
          have hne : c ≠ '*' := fun hc => hs s (by rw [hc])
          cases edge <;> simp [tokens?, Item.token, hne]
  | directories => simp [tokens?, Item.token]
  | lastDirectories => simp [tokens?, Item.token]
  | oneOf hfirst hset =>
      cases edge <;> simp [tokens?, Item.token, hfirst, tokens_inSet_closed hset, setToken]
  | noneOf hset => cases edge <;> simp [tokens?, Item.token, tokens_inSet_closed hset, setToken]

theorem tokens_of_defect (h : Defect edge text) : tokens? (.outside edge) text = none := by
  cases h with
  | threeStars => simp [tokens?]
  | @starsAfterText s =>
      cases s with
      | nil => simp [tokens?]
      | cons c s => by_cases hc : c = '*' <;> simp [tokens?, hc]
  | @starsBeforeText _ c s hslash =>
      by_cases hc : c = '*' <;> cases edge <;> simp [tokens?, hc, hslash]
  | unclosed hs =>
      cases hs with
      | bare => simp [tokens?]
      | bareNegation => simp [tokens?]
      | set hfirst hset => cases edge <;> simp [tokens?, hfirst, tokens_inSet_unclosed hset]
      | negatedSet hset => cases edge <;> simp [tokens?, tokens_inSet_unclosed hset]

theorem length_lt_of_step (h : Step edge item text edge' rest) : rest.length < text.length := by
  cases h with
  | oneOf | noneOf =>
      simp only [List.length_cons, List.length_append]
      omega
  | _ =>
      simp only [List.length_cons, List.length_nil]
      omega

/-- What a step leaves to read is the end of what there was. -/
theorem suffix_of_step (h : Step edge item text edge' rest) : rest <:+ text := by
  cases h with
  | @oneOf _ first set _ => exact ⟨'[' :: first :: (set ++ [']']), by simp⟩
  | @noneOf _ first set _ => exact ⟨'[' :: '!' :: first :: (set ++ [']']), by simp⟩
  | _ => simp [List.suffix_cons_iff]

/-- After a `[` there is a set or an unclosed one. -/
theorem exists_set_step (edge : Bool) (s : List Char) :
    (∃ item rest, Step edge item ('[' :: s) false rest) ∨ Defect edge ('[' :: s) := by
  cases s with
  | nil => exact .inr (.unclosed .bare)
  | cons first s =>
      by_cases hfirst : first = '!'
      · subst hfirst
        cases s with
        | nil => exact .inr (.unclosed .bareNegation)
        | cons first s =>
            by_cases hclosed : ']' ∈ s
            · obtain ⟨set, rest, rfl, hset⟩ := List.eq_append_cons_of_mem hclosed
              exact .inl ⟨_, rest, .noneOf hset⟩
            · exact .inr (.unclosed (.negatedSet hclosed))
      · by_cases hclosed : ']' ∈ s
        · obtain ⟨set, rest, rfl, hset⟩ := List.eq_append_cons_of_mem hclosed
          exact .inl ⟨_, rest, .oneOf hfirst hset⟩
        · exact .inr (.unclosed (.set hfirst hclosed))

/-- After two stars there is a `**` or a defect. -/
theorem exists_stars_step (edge : Bool) (s : List Char) :
    (∃ rest, Step edge .directories ('*' :: '*' :: s) true rest) ∨
      Defect edge ('*' :: '*' :: s) := by
  cases edge with
  | false => exact .inr .starsAfterText
  | true =>
      cases s with
      | nil => exact .inl ⟨[], .lastDirectories⟩
      | cons c s =>
          by_cases hslash : c = '/'
          · subst hslash
            exact .inl ⟨s, .directories⟩
          · exact .inr (.starsBeforeText hslash)

/-- Whatever is left to read starts with an item or has a defect. -/
theorem exists_step_or_defect (edge : Bool) (c : Char) (s : List Char) :
    (∃ item edge' rest, Step edge item (c :: s) edge' rest) ∨ Defect edge (c :: s) := by
  by_cases hquestion : c = '?'
  · subst hquestion
    exact .inl ⟨_, _, s, .anyChar⟩
  by_cases hbracket : c = '['
  · subst hbracket
    obtain ⟨item, rest, hstep⟩ | hdefect := exists_set_step edge s
    · exact .inl ⟨item, false, rest, hstep⟩
    · exact .inr hdefect
  by_cases hstar : c = '*'
  · subst hstar
    by_cases hstars : ∃ t, s = '*' :: t
    · obtain ⟨t, rfl⟩ := hstars
      obtain ⟨rest, hstep⟩ | hdefect := exists_stars_step edge t
      · exact .inl ⟨_, true, rest, hstep⟩
      · exact .inr hdefect
    · exact .inl ⟨_, _, s, .sequence fun t ht => hstars ⟨t, ht⟩⟩
  · exact .inl ⟨_, _, s, .char hquestion hstar hbracket⟩

/-- The reader finds the tokens of what is spelled. -/
theorem tokens_of_spells (h : Spells edge items text) :
    tokens? (.outside edge) text = some (items.map Item.token) := by
  induction h with
  | nil => rw [tokens?, List.map_nil]
  | cons hstep _ ih => rw [tokens_of_step hstep, ih, Option.map_some, List.map_cons]

theorem tokens_of_illFormed (h : IllFormed edge text) : tokens? (.outside edge) text = none := by
  induction h with
  | here hdefect => exact tokens_of_defect hdefect
  | later hstep _ ih => rw [tokens_of_step hstep, ih, Option.map_none]

/-- Text that is not ill-formed spells something. -/
theorem exists_spells_or_illFormed (edge : Bool) (text : List Char) :
    (∃ items, Spells edge items text) ∨ IllFormed edge text := by
  induction hlength : text.length using Nat.strongRecOn generalizing edge text with
  | ind length ih =>
      cases text with
      | nil => exact .inl ⟨[], .nil⟩
      | cons c s =>
          obtain ⟨item, edge', rest, hstep⟩ | hdefect := exists_step_or_defect edge c s
          · have hshorter : rest.length < length := hlength ▸ length_lt_of_step hstep
            obtain ⟨items, hitems⟩ | hill := ih rest.length hshorter edge' rest rfl
            · exact .inl ⟨item :: items, .cons hstep hitems⟩
            · exact .inr (.later hstep hill)
          · exact .inr (.here hdefect)

/-- The reader finds nothing but the tokens of the items that the text spells. -/
theorem tokens_eq_some_iff {tokens : List Token} :
    tokens? (.outside edge) text = some tokens ↔
      ∃ items, Spells edge items text ∧ items.map Item.token = tokens := by
  constructor
  · intro h
    obtain ⟨items, hitems⟩ | hill := exists_spells_or_illFormed edge text
    · rw [tokens_of_spells hitems] at h
      exact ⟨items, hitems, Option.some.inj h⟩
    · rw [tokens_of_illFormed hill] at h
      cases h
  · rintro ⟨items, hitems, rfl⟩
    exact tokens_of_spells hitems

/-- Text spells no items exactly when it is ill-formed. -/
theorem not_spells_iff_illFormed : (¬ ∃ items, Spells edge items text) ↔ IllFormed edge text := by
  constructor
  · intro h
    exact (exists_spells_or_illFormed edge text).resolve_left h
  · rintro hill ⟨items, hitems⟩
    have hsome := tokens_of_spells hitems
    rw [tokens_of_illFormed hill] at hsome
    cases hsome

end Reader

section Fitting

variable {items : List Item} {pattern text : String}

/-- A pattern that spells some items fits the texts in their language. -/
theorem fits_iff_of_spells (h : Spells true items pattern.toList) :
    fits pattern text = true ↔ Language items text.toList := by
  rw [fits, ofText?, tokens_of_spells h, Option.map_some]
  simp only [admits]
  rw [search_eq_accepts, accepts_iff_language]

/-- An ill-formed pattern fits nothing. -/
theorem fits_of_illFormed (h : IllFormed true pattern.toList) : fits pattern text = false := by
  rw [fits, ofText?, tokens_of_illFormed h, Option.map_none]

/-- A glob fits the texts in the language of the items that its own text spells. -/
theorem fits_iff :
    fits pattern text = true ↔
      ∃ items, Spells true items pattern.toList ∧ Language items text.toList := by
  obtain ⟨items, hitems⟩ | hill := exists_spells_or_illFormed true pattern.toList
  · constructor
    · intro h
      exact ⟨items, hitems, (fits_iff_of_spells hitems).1 h⟩
    · rintro ⟨items', hitems', hlanguage⟩
      exact (fits_iff_of_spells hitems').2 hlanguage
  · rw [fits_of_illFormed hill]
    constructor
    · intro h
      cases h
    · intro h
      exact absurd (h.imp fun _ hitems => hitems.1) (not_spells_iff_illFormed.2 hill)

end Fitting

end CodeSmells.Glob
