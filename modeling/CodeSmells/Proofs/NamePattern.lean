import CodeSmells.Context.Basic
import CodeSmells.Proofs.Glob.Grammar
import Mathlib.Data.List.Infix

/-!
# What a pattern says about names

A pattern without `*`, `?` and `[` speaks of the names that contain it.  Any
other pattern speaks of the names in the language of the items that it spells,
and of no names at all if it is ill-formed.

**Results.**

* `occursIn_iff`: a part occurs in a whole exactly when it is an infix of it.
* `fits_of_special`, `fits_literal_iff`: what a pattern fits of either kind.
* `fits_of_illFormed`: an ill-formed pattern fits no name.
* `fits_iff_denotes`: a pattern fits the names that it denotes.
* `context_fits_iff_denotes`: the same for the patterns that a context is matched with.
-/

namespace CodeSmells.NamePattern

/-- The pattern has one of the characters that make it a glob. -/
def Special (pattern : String) : Prop :=
  '*' ∈ pattern.toList ∨ '?' ∈ pattern.toList ∨ '[' ∈ pattern.toList

instance (pattern : String) : Decidable (Special pattern) :=
  inferInstanceAs (Decidable
    ('*' ∈ pattern.toList ∨ '?' ∈ pattern.toList ∨ '[' ∈ pattern.toList))

/-- The names that a pattern speaks of. -/
def Denotes (pattern name : String) : Prop :=
  (Special pattern ∧
    ∃ items, Glob.Spells true items pattern.toList ∧ Glob.Language items name.toList) ∨
  (¬ Special pattern ∧ pattern.toList <:+: name.toList)

section Patterns

variable {pattern name : String}

theorem isGlob_iff : isGlob pattern = true ↔ Special pattern := by
  rw [isGlob, List.any_eq_true, Special]
  constructor
  · rintro ⟨c, hmem, hc⟩
    simp only [Bool.or_eq_true, beq_iff_eq] at hc
    obtain (rfl | rfl) | rfl := hc
    · exact .inl hmem
    · exact .inr (.inl hmem)
    · exact .inr (.inr hmem)
  · rintro (h | h | h)
    · exact ⟨'*', h, rfl⟩
    · exact ⟨'?', h, rfl⟩
    · exact ⟨'[', h, rfl⟩

/-- A part occurs in a whole that has it as a run of characters. -/
theorem occursIn_iff {part whole : String} :
    occursIn part whole = true ↔ part.toList <:+: whole.toList := by
  rw [occursIn, anySuffix_iff]
  constructor
  · rintro ⟨u, v, hsplit, hv⟩
    obtain ⟨t, ht⟩ := List.isPrefixOf_iff_prefix.1 hv
    exact ⟨u, t, by rw [List.append_assoc, ht, hsplit]⟩
  · rintro ⟨u, t, hsplit⟩
    exact ⟨u, part.toList ++ t, by rw [← hsplit, List.append_assoc],
      List.isPrefixOf_iff_prefix.2 (List.prefix_append _ t)⟩

/-- A pattern with special characters is a glob. -/
theorem fits_of_special (h : Special pattern) : fits pattern name = Glob.fits pattern name := by
  rw [fits, if_pos (isGlob_iff.2 h)]

/-- Any other pattern is a part of the names that it fits. -/
theorem fits_literal_iff (h : ¬ Special pattern) :
    fits pattern name = true ↔ pattern.toList <:+: name.toList := by
  rw [fits, if_neg (mt isGlob_iff.1 h), occursIn_iff]

theorem fits_iff_denotes : fits pattern name = true ↔ Denotes pattern name := by
  rw [Denotes]
  by_cases hspecial : Special pattern
  · rw [fits_of_special hspecial, Glob.fits_iff]
    constructor
    · intro h
      exact .inl ⟨hspecial, h⟩
    · rintro (⟨-, h⟩ | ⟨hplain, -⟩)
      · exact h
      · exact absurd hspecial hplain
  · rw [fits_literal_iff hspecial]
    constructor
    · intro h
      exact .inr ⟨hspecial, h⟩
    · rintro (⟨h, -⟩ | ⟨-, h⟩)
      · exact absurd h hspecial
      · exact h

/-- Each defect has a star or a bracket in it. -/
theorem star_or_bracket_of_illFormed {edge : Bool} {text : List Char}
    (h : Glob.IllFormed edge text) : '*' ∈ text ∨ '[' ∈ text := by
  induction h with
  | here hdefect => cases hdefect <;> simp
  | later hstep _ ih =>
      obtain ⟨before, hsuffix⟩ := Glob.suffix_of_step hstep
      rw [← hsuffix]
      exact ih.imp (List.mem_append_right before) (List.mem_append_right before)

theorem special_of_illFormed (h : Glob.IllFormed true pattern.toList) : Special pattern := by
  obtain hstar | hbracket := star_or_bracket_of_illFormed h
  · exact .inl hstar
  · exact .inr (.inr hbracket)

/-- An ill-formed pattern fits no name. -/
theorem fits_of_illFormed (h : Glob.IllFormed true pattern.toList) : fits pattern name = false := by
  rw [fits_of_special (special_of_illFormed h), Glob.fits_of_illFormed h]

/-- An ill-formed pattern speaks of no names. -/
theorem not_denotes_of_illFormed (h : Glob.IllFormed true pattern.toList) :
    ¬ Denotes pattern name := by
  rw [← fits_iff_denotes, fits_of_illFormed h]
  exact Bool.false_ne_true

end Patterns

/--
A context fits some patterns exactly when one of them denotes its full name.  A
pattern that is ill-formed as a glob, so one that spells no items, fits no
context.
-/
theorem context_fits_iff_denotes :
    (∀ (context : Context) (patterns : List String),
      context.fits patterns = true ↔ ∃ pattern ∈ patterns, Denotes pattern context.fullName) ∧
    (∀ (context : Context) (pattern : String),
      Glob.IllFormed true pattern.toList → context.fits [pattern] = false) ∧
    (∀ pattern : String,
      (¬ ∃ items, Glob.Spells true items pattern.toList) ↔
        Glob.IllFormed true pattern.toList) := by
  have hfits : ∀ (context : Context) (patterns : List String),
      context.fits patterns = true ↔
        ∃ pattern ∈ patterns, Denotes pattern context.fullName := by
    intro context patterns
    rw [Context.fits, anyFits, List.any_eq_true]
    simp only [fits_iff_denotes]
  refine ⟨hfits, ?_, fun pattern => Glob.not_spells_iff_illFormed⟩
  intro context pattern hill
  rw [← Bool.not_eq_true, hfits]
  rintro ⟨pattern', hmem, hdenotes⟩
  rw [List.mem_singleton.1 hmem] at hdenotes
  exact not_denotes_of_illFormed hill hdenotes

/-- A star reaches over the colons of a name; a `**` after text reaches over nothing. -/
theorem bare_method_fits_star :
    (Context.bare .method "a::b" 1).fits ["a*b"] = true ∧
      (Context.bare .method "a::b" 1).fits ["a**"] = false := by
  obtain ⟨hfits, hill, -⟩ := context_fits_iff_denotes
  have hpattern : "a*b".toList = ['a', '*', 'b'] := by decide +kernel
  have hname : "a::b".toList = ['a', ':', ':', 'b'] := by decide +kernel
  have hstars : "a**".toList = ['a', '*', '*'] := by decide +kernel
  constructor
  · refine (hfits _ _).2 ⟨"a*b", List.mem_singleton.2 rfl, .inl ⟨?_, ?_⟩⟩
    · rw [Special, hpattern]
      decide
    · refine ⟨[.char 'a', .sequence, .char 'b'], ?_, ?_⟩
      · rw [hpattern]
        exact .cons (.char (by decide) (by decide) (by decide)) <|
          .cons (.sequence (by simp)) <|
          .cons (.char (by decide) (by decide) (by decide)) .nil
      · rw [Context.bare, hname]
        exact ⟨['a'], [':', ':', 'b'], rfl, rfl, [':', ':'], ['b'], rfl, trivial,
          ['b'], [], rfl, rfl, rfl⟩
  · apply hill
    rw [hstars]
    exact .later (.char (by decide) (by decide) (by decide)) (.here .starsAfterText)

end CodeSmells.NamePattern
