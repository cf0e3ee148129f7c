import CodeSmells.Proofs.Glob.Grammar
import Mathlib.Data.List.Infix

/-!
# Literal text in globs

Text without `*`, `?` and `[` spells one item for each of its characters, in
whatever place of a glob it stands.  These items stand for that text and for no
other.

**Results.**

* `spells_literal_append`: literal text and then other items.
* `language_literal_append_iff`: the language of these.
* `fits_literal_iff`: literal text as a glob fits itself only.
* `fits_between_stars_iff`: between two stars it fits the texts that contain it.
-/

namespace CodeSmells.Glob

/-- Text in which every character stands for itself. -/
def IsLiteral (text : List Char) : Prop :=
  ∀ c ∈ text, c ≠ '?' ∧ c ≠ '*' ∧ c ≠ '['

section Items

variable {edge : Bool} {items : List Item} {text rest s : List Char}

/-- Literal text spells its characters, whatever is spelled after it. -/
theorem spells_literal_append (h : IsLiteral text) (hrest : ∀ edge, Spells edge items rest) :
    Spells edge (text.map .char ++ items) (text ++ rest) := by
  induction text generalizing edge with
  | nil => exact hrest edge
  | cons c text ih =>
      obtain ⟨⟨hquestion, hstar, hbracket⟩, htext⟩ := List.forall_mem_cons.1 h
      exact .cons (.char hquestion hstar hbracket) (ih htext)

theorem language_char_iff {c : Char} :
    Language (.char c :: items) s ↔ ∃ t, s = c :: t ∧ Language items t := by
  constructor
  · rintro ⟨u, t, rfl, rfl, ht⟩
    exact ⟨t, rfl, ht⟩
  · rintro ⟨t, rfl, ht⟩
    exact ⟨[c], t, rfl, rfl, ht⟩

/-- Its characters stand for the text itself, before whatever follows. -/
theorem language_literal_append_iff :
    Language (text.map .char ++ items) s ↔ ∃ t, s = text ++ t ∧ Language items t := by
  induction text generalizing s with
  | nil => simp
  | cons c text ih =>
      rw [List.map_cons, List.cons_append, language_char_iff]
      simp only [ih]
      constructor
      · rintro ⟨_, rfl, t, rfl, ht⟩
        exact ⟨t, rfl, ht⟩
      · rintro ⟨t, rfl, ht⟩
        exact ⟨_, rfl, t, rfl, ht⟩

/-- A `*` at the end stands for any text. -/
theorem language_lastSequence (s : List Char) : Language [.sequence] s :=
  language_sequence_iff.2 ⟨s, [], (List.append_nil s).symm, rfl⟩

end Items

section Patterns

variable {pattern text : String}

/-- Literal text as a glob fits itself only. -/
theorem fits_literal_iff (h : IsLiteral pattern.toList) :
    fits pattern text = true ↔ text = pattern := by
  have hspells : Spells true (pattern.toList.map .char ++ []) (pattern.toList ++ []) :=
    spells_literal_append h fun _ => .nil
  rw [List.append_nil pattern.toList] at hspells
  rw [fits_iff_of_spells hspells, language_literal_append_iff]
  simp only [Language]
  constructor
  · rintro ⟨_, hsplit, rfl⟩
    rw [List.append_nil] at hsplit
    exact String.toList_inj.1 hsplit
  · rintro rfl
    exact ⟨[], (List.append_nil _).symm, rfl⟩

/--
Between two stars literal text fits the texts that contain it.  The empty text
makes a `**` of the stars, which fits every text too.
-/
theorem fits_between_stars_iff (h : IsLiteral pattern.toList) :
    fits ("*" ++ pattern ++ "*") text = true ↔ pattern.toList <:+: text.toList := by
  have hpattern : ("*" ++ pattern ++ "*").toList = '*' :: (pattern.toList ++ ['*']) := by
    simp [String.toList_append]
  cases hliteral : pattern.toList with
  | nil =>
      have hspells : Spells true [.directories] ("*" ++ pattern ++ "*").toList := by
        rw [hpattern, hliteral]
        exact .cons .lastDirectories .nil
      rw [fits_iff_of_spells hspells]
      exact iff_of_true (language_lastDirectories _) List.nil_infix
  | cons c rest =>
      have hstar : ∀ t, c :: rest ++ ['*'] ≠ '*' :: t := by
        intro t ht
        exact (h c (by simp [hliteral])).2.1 (List.cons.inj ht).1
      have hspells : Spells true (.sequence :: ((c :: rest).map .char ++ [.sequence]))
          ("*" ++ pattern ++ "*").toList := by
        rw [hpattern, hliteral]
        rw [hliteral] at h
        exact .cons (.sequence hstar) <|
          spells_literal_append h fun _ => .cons (.sequence nofun) .nil
      rw [fits_iff_of_spells hspells, language_sequence_iff]
      simp only [language_literal_append_iff]
      constructor
      · rintro ⟨u, _, hsplit, t, rfl, -⟩
        exact ⟨u, t, by rw [hsplit, List.append_assoc]⟩
      · rintro ⟨u, t, hsplit⟩
        exact ⟨u, _, by rw [← hsplit, List.append_assoc], t, rfl, language_lastSequence t⟩

end Patterns

end CodeSmells.Glob
