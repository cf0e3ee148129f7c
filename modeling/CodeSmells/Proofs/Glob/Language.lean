import CodeSmells.Glob.Search
import Mathlib.Data.List.Basic

/-!
# The language of a glob

A glob is written as a list of items, each of which stands for certain texts.
The language of the glob is what these texts make up in a row.

**Results.**

* `anySuffix_iff`, `anySuffixAfter_iff`: the searches of a text for a suffix.
* `listed_iff`: the characters that a set lists.
* `accepts_iff_language`: the tokens of items accept the language of the items.
-/

namespace CodeSmells

section Suffixes

variable {p : List Char → Bool}

theorem anySuffix_iff {s : List Char} :
    anySuffix p s = true ↔ ∃ u v, s = u ++ v ∧ p v = true := by
  induction s with
  | nil =>
      constructor
      · intro h
        exact ⟨[], [], rfl, h⟩
      · rintro ⟨u, v, hsplit, hv⟩
        obtain ⟨rfl, rfl⟩ := List.append_eq_nil_iff.1 hsplit.symm
        exact hv
  | cons c s ih =>
      rw [anySuffix, Bool.or_eq_true, ih]
      constructor
      · rintro (h | ⟨u, v, rfl, hv⟩)
        · exact ⟨[], c :: s, rfl, h⟩
        · exact ⟨c :: u, v, rfl, hv⟩
      · rintro ⟨u, v, hsplit, hv⟩
        cases u with
        | nil =>
            left
            rw [hsplit]
            exact hv
        | cons d u =>
            right
            exact ⟨u, v, (List.cons.inj hsplit).2, hv⟩

theorem anySuffixAfter_iff {sep : Char} {s : List Char} :
    anySuffixAfter sep p s = true ↔ ∃ u v, s = u ++ sep :: v ∧ p v = true := by
  induction s with
  | nil => simp [anySuffixAfter]
  | cons c s ih =>
      rw [anySuffixAfter, Bool.or_eq_true, Bool.and_eq_true, beq_iff_eq, ih]
      constructor
      · rintro (⟨rfl, hs⟩ | ⟨u, v, rfl, hv⟩)
        · exact ⟨[], s, rfl, hs⟩
        · exact ⟨c :: u, v, rfl, hv⟩
      · rintro ⟨u, v, hsplit, hv⟩
        cases u with
        | nil =>
            left
            obtain ⟨rfl, rfl⟩ := List.cons.inj hsplit
            exact ⟨rfl, hv⟩
        | cons d u =>
            right
            exact ⟨u, v, (List.cons.inj hsplit).2, hv⟩

end Suffixes

namespace Glob

section Sets

/--
The characters that the text of a set lists.  The text is read from the left:
three characters with a dash in the middle are a range, any other character
stands for itself.
-/
inductive Listed (c : Char) : List Char → Prop
  | range {low high : Char} {rest : List Char} :
      low ≤ c → c ≤ high → Listed c (low :: '-' :: high :: rest)
  | afterRange {low high : Char} {rest : List Char} :
      Listed c rest → Listed c (low :: '-' :: high :: rest)
  | single {rest : List Char} :
      (∀ high more, rest ≠ '-' :: high :: more) → Listed c (c :: rest)
  | afterSingle {d : Char} {rest : List Char} :
      (∀ high more, rest ≠ '-' :: high :: more) → Listed c rest → Listed c (d :: rest)

/-- A range and then other entries. -/
theorem listed_range_iff {c low high : Char} {rest : List Char} :
    Listed c (low :: '-' :: high :: rest) ↔ (low ≤ c ∧ c ≤ high) ∨ Listed c rest := by
  constructor
  · intro h
    cases h with
    | range hlow hhigh => exact .inl ⟨hlow, hhigh⟩
    | afterRange hrest => exact .inr hrest
    | single hnot => exact absurd rfl (hnot high rest)
    | afterSingle hnot _ => exact absurd rfl (hnot high rest)
  · rintro (⟨hlow, hhigh⟩ | hrest)
    · exact .range hlow hhigh
    · exact .afterRange hrest

theorem listed_single_iff {c d : Char} {rest : List Char}
    (hnot : ∀ high more, rest ≠ '-' :: high :: more) :
    Listed c (d :: rest) ↔ c = d ∨ Listed c rest := by
  constructor
  · intro h
    cases h with
    | range => exact absurd rfl (hnot _ _)
    | afterRange => exact absurd rfl (hnot _ _)
    | single => exact .inl rfl
    | afterSingle _ hrest => exact .inr hrest
  · rintro (rfl | hrest)
    · exact .single hnot
    · exact .afterSingle hnot hrest

/-- The entries of a set hold the characters that its text lists. -/
theorem listed_iff (c : Char) (set : List Char) :
    (Member.ofText set).any (Member.holds c) = true ↔ Listed c set := by
  fun_induction Member.ofText set with
  | case1 low high rest ih =>
      rw [listed_range_iff, ← ih, List.any_cons, Bool.or_eq_true, Member.holds,
        Bool.and_eq_true, decide_eq_true_iff, decide_eq_true_iff]
  | case2 d rest hnot ih =>
      rw [listed_single_iff (fun high more h => hnot high more h), ← ih, List.any_cons,
        Bool.or_eq_true, Member.holds, beq_iff_eq]
  | case3 =>
      constructor
      · intro h
        cases h
      · intro h
        cases h

end Sets

/-- An item of a glob, as it is written. -/
inductive Item where
  /-- A character that stands for itself. -/
  | char (c : Char)
  /-- `?` -/
  | anyChar
  /-- `*` -/
  | sequence
  /-- `**`, with the `/` after it if there is one. -/
  | directories
  /-- `[...]` -/
  | oneOf (set : List Char)
  /-- `[!...]` -/
  | noneOf (set : List Char)

namespace Item

/-- The texts that an item stands for; `last` says that no item follows it. -/
def StandsFor (last : Prop) : Item → List Char → Prop
  | char d, u => u = [d]
  | anyChar, u => ∃ c, u = [c]
  | sequence, _ => True
  | directories, u => last ∨ u = [] ∨ ∃ v, u = v ++ ['/']
  | oneOf set, u => ∃ c, u = [c] ∧ Listed c set
  | noneOf set, u => ∃ c, u = [c] ∧ ¬ Listed c set

def token : Item → Token
  | char c => .literal c
  | anyChar => .anyChar
  | sequence => .sequence
  | directories => .directories
  | oneOf set => .oneOf (Member.ofText set)
  | noneOf set => .noneOf (Member.ofText set)

/-- Whether an item stands for single characters. -/
def IsSingle : Item → Prop
  | sequence => False
  | directories => False
  | _ => True

/-- The token of such an item admits the characters that the item stands for. -/
theorem admits_token_iff {item : Item} (h : item.IsSingle) (last : Prop) (c : Char) :
    item.token.admits c = true ↔ item.StandsFor last [c] := by
  cases item with
  | char d => simp [token, Token.admits, StandsFor]
  | anyChar => simp [token, Token.admits, StandsFor]
  | sequence => cases h
  | directories => cases h
  | oneOf set => simp [token, Token.admits, StandsFor, ← listed_iff]
  | noneOf set => simp [token, Token.admits, StandsFor, ← listed_iff]

/-- Such an item stands for nothing but single characters. -/
theorem exists_eq_of_standsFor {item : Item} (h : item.IsSingle) {last : Prop}
    {u : List Char} (hu : item.StandsFor last u) : ∃ c, u = [c] := by
  cases item with
  | char d => exact ⟨d, hu⟩
  | anyChar => exact hu
  | sequence => cases h
  | directories => cases h
  | oneOf set => exact ⟨_, hu.choose_spec.1⟩
  | noneOf set => exact ⟨_, hu.choose_spec.1⟩

end Item

/-- The texts that items make up in a row. -/
def Language : List Item → List Char → Prop
  | [], s => s = []
  | item :: rest, s => ∃ u v, s = u ++ v ∧ item.StandsFor (rest = []) u ∧ Language rest v

section Acceptance

variable {item : Item} {rest : List Item} {s : List Char}

/-- An item for single characters takes the first character. -/
theorem language_single_iff (h : item.IsSingle) :
    Language (item :: rest) s ↔
      ∃ c t, s = c :: t ∧ item.token.admits c = true ∧ Language rest t := by
  constructor
  · rintro ⟨u, v, rfl, hu, hv⟩
    obtain ⟨c, rfl⟩ := Item.exists_eq_of_standsFor h hu
    exact ⟨c, v, rfl, (Item.admits_token_iff h _ c).2 hu, hv⟩
  · rintro ⟨c, t, rfl, hc, ht⟩
    exact ⟨[c], t, rfl, (Item.admits_token_iff h _ c).1 hc, ht⟩

theorem accepts_single_iff (h : item.IsSingle) (tokens : List Token) :
    accepts (item.token :: tokens) s = true ↔
      ∃ c t, s = c :: t ∧ item.token.admits c = true ∧ accepts tokens t = true := by
  cases s with
  | nil => cases item <;> simp_all [Item.token, Item.IsSingle, accepts]
  | cons c t => cases item <;> simp_all [Item.token, Item.IsSingle, accepts]

/-- A `*` passes over any text. -/
theorem language_sequence_iff :
    Language (.sequence :: rest) s ↔ ∃ u v, s = u ++ v ∧ Language rest v := by
  simp only [Language, Item.StandsFor, true_and]

/-- A `**` at the end passes over any text. -/
theorem language_lastDirectories (s : List Char) : Language [.directories] s :=
  ⟨s, [], (List.append_nil s).symm, .inl rfl, rfl⟩

/-- Elsewhere it passes over nothing or up to a `/`. -/
theorem language_directories_iff (h : rest ≠ []) :
    Language (.directories :: rest) s ↔
      Language rest s ∨ ∃ u v, s = u ++ '/' :: v ∧ Language rest v := by
  constructor
  · rintro ⟨u, v, rfl, hlast | rfl | ⟨w, rfl⟩, hv⟩
    · exact absurd hlast h
    · exact .inl hv
    · right
      exact ⟨w, v, by simp, hv⟩
  · rintro (hs | ⟨u, v, rfl, hv⟩)
    · exact ⟨[], s, rfl, .inr (.inl rfl), hs⟩
    · exact ⟨u ++ ['/'], v, by simp, .inr (.inr ⟨u, rfl⟩), hv⟩

/-- The tokens of items accept the language of the items. -/
theorem accepts_iff_language (items : List Item) (s : List Char) :
    accepts (items.map Item.token) s = true ↔ Language items s := by
  induction items generalizing s with
  | nil => simp [accepts, Language]
  | cons item rest ih =>
      by_cases hsingle : item.IsSingle
      · rw [List.map_cons, accepts_single_iff hsingle, language_single_iff hsingle]
        simp only [ih]
      · cases item with
        | sequence =>
            rw [language_sequence_iff, List.map_cons, Item.token, accepts, anySuffix_iff]
            simp only [ih]
        | directories =>
            cases rest with
            | nil =>
                constructor
                · intro _
                  exact language_lastDirectories s
                · intro _
                  rfl
            | cons next rest =>
                have haccepts : accepts (List.map Item.token (.directories :: next :: rest)) s =
                    (accepts (List.map Item.token (next :: rest)) s ||
                      anySuffixAfter '/' (accepts (List.map Item.token (next :: rest))) s) := rfl
                rw [haccepts, language_directories_iff (List.cons_ne_nil next rest),
                  Bool.or_eq_true, ih, anySuffixAfter_iff]
                simp only [ih]
        | char | anyChar | oneOf | noneOf => exact absurd trivial hsingle

end Acceptance

end Glob
end CodeSmells
