import CodeSmells.Config.Basic
import CodeSmells.Proofs.Glob.Literal
import CodeSmells.Proofs.NamePattern

/-!
# Patterns that leave something out

Contexts are left out by patterns for their names, sources by globs of the
configuration.  Both read a pattern with `*`, `?` or `[` as one glob.  Any other
pattern is a part of a name there, and the whole of a source here.

**Results.**

* `fits_of_fits_glob`: as a pattern for names, a pattern fits what it fits as a glob.
* `fits_congr`, `suppresses_congr`: lists of patterns with the same well-formed ones.
* `literal_fits_between_stars`: a literal pattern as a glob.
* `suppression_and_exclusion`: the two ways to leave something out.
-/

namespace CodeSmells

namespace NamePattern

variable {pattern name : String}

theorem isLiteral_of_not_special (h : ¬ Special pattern) : Glob.IsLiteral pattern.toList := by
  intro c hc
  refine ⟨?_, ?_, ?_⟩
  · rintro rfl
    exact h (.inr (.inl hc))
  · rintro rfl
    exact h (.inl hc)
  · rintro rfl
    exact h (.inr (.inr hc))

/-- As a glob, a pattern fits no more than it does as a pattern for names. -/
theorem fits_of_fits_glob (h : Glob.fits pattern name = true) : fits pattern name = true := by
  by_cases hspecial : Special pattern
  · rw [fits_of_special hspecial]
    exact h
  · rw [Glob.fits_literal_iff (isLiteral_of_not_special hspecial)] at h
    rw [fits_literal_iff hspecial, h]

/-- The same patterns are in both lists, ill-formed ones apart. -/
def SameWellFormed (patterns others : List String) : Prop :=
  ∀ pattern, ¬ Glob.IllFormed true pattern.toList → (pattern ∈ patterns ↔ pattern ∈ others)

/-- What ill-formed patterns never satisfy does not depend on them. -/
theorem any_congr {patterns others : List String} {p : String → Bool}
    (h : SameWellFormed patterns others)
    (hp : ∀ pattern, Glob.IllFormed true pattern.toList → p pattern = false) :
    patterns.any p = others.any p := by
  have hwellFormed : ∀ pattern, p pattern = true → ¬ Glob.IllFormed true pattern.toList := by
    intro pattern htrue hill
    rw [hp pattern hill] at htrue
    cases htrue
  rw [Bool.eq_iff_iff, List.any_eq_true, List.any_eq_true]
  exact exists_congr fun pattern =>
    and_congr_left fun htrue => h pattern (hwellFormed pattern htrue)

end NamePattern

open NamePattern

section Contexts

variable {context : Context} {pattern : String} {patterns others : List String}

theorem Context.fits_singleton (context : Context) (pattern : String) :
    context.fits [pattern] = NamePattern.fits pattern context.fullName := by
  rw [Context.fits, anyFits, List.any_cons, List.any_nil, Bool.or_false]

/-- Order, repetition and ill-formed patterns make no difference to contexts. -/
theorem Context.fits_congr (h : SameWellFormed patterns others) :
    context.fits patterns = context.fits others :=
  any_congr h fun _ => NamePattern.fits_of_illFormed

/--
A pattern without special characters fits the names that contain it.  As a glob
between two stars it fits the same names, also where it is empty and the stars
make a `**`.
-/
theorem Context.literal_fits_between_stars (context : Context) (pattern : String)
    (h : ¬ Special pattern) :
    context.fits [pattern] = context.fits ["*" ++ pattern ++ "*"] ∧
    (context.fits [pattern] = true ↔ pattern.toList <:+: context.fullName.toList) := by
  have hspecial : Special ("*" ++ pattern ++ "*") := .inl (by simp [String.toList_append])
  have hliteral : context.fits [pattern] = true ↔
      pattern.toList <:+: context.fullName.toList := by
    rw [Context.fits_singleton, NamePattern.fits_literal_iff h]
  refine ⟨?_, hliteral⟩
  rw [Bool.eq_iff_iff, hliteral, Context.fits_singleton, fits_of_special hspecial,
    Glob.fits_between_stars_iff (isLiteral_of_not_special h)]

/-- The empty pattern, and one with characters that are special elsewhere. -/
theorem Context.empty_pattern_fits_between_stars :
    (Context.bare .method "Shape#draw" 1).fits [""] =
      (Context.bare .method "Shape#draw" 1).fits ["**"] ∧
    (Context.bare .method "lib/[]!é-x" 1).fits ["/]!é-"] =
      (Context.bare .method "lib/[]!é-x" 1).fits ["*/]!é-*"] ∧
    (Context.bare .method "lib/[]!é-x" 1).fits ["]!é-"] = true := by
  have hempty : ¬ Special "" := by decide
  have hslash : ¬ Special "/]!é-" := by decide
  have hbracket : ¬ Special "]!é-" := by decide
  obtain ⟨-, hcontains⟩ :=
    literal_fits_between_stars (Context.bare .method "lib/[]!é-x" 1) "]!é-" hbracket
  exact ⟨(literal_fits_between_stars _ "" hempty).1,
    (literal_fits_between_stars _ "/]!é-" hslash).1,
    hcontains.2 ⟨"lib/[".toList, "x".toList, by decide⟩⟩

end Contexts

section Sources

variable {config : Config} {pattern text : String} {patterns others : List String}

/-- Order, repetition and ill-formed globs make no difference to sources. -/
theorem Config.suppresses_congr {source : Path} (h : SameWellFormed patterns others) :
    { config with suppressedFiles := patterns }.suppresses source =
      { config with suppressedFiles := others }.suppresses source :=
  any_congr h fun _ => Glob.fits_of_illFormed

theorem Config.suppresses_singleton (config : Config) (pattern : String) (source : Path) :
    { config with suppressedFiles := [pattern] }.suppresses source =
      Glob.fits pattern source.text := by
  rw [Config.suppresses, List.any_cons, List.any_nil, Bool.or_false]

/--
A pattern with a special character leaves out the same texts as sources and as names.
Any other pattern leaves out one source only, but every name that contains it.  So a
list of patterns leaves out as names all that it leaves out as sources.  In either use
only the well-formed patterns of a list matter, in any order and number.
-/
theorem Config.suppression_and_exclusion (config : Config) (context : Context) :
    let suppresses (patterns : List String) (text : String) : Bool :=
      { config with suppressedFiles := patterns }.suppresses ⟨text⟩
    let excludes (patterns : List String) (text : String) : Bool :=
      { context with fullName := text }.fits patterns
    (∀ pattern text, Special pattern → suppresses [pattern] text = excludes [pattern] text) ∧
    (∀ pattern text, ¬ Special pattern →
      (suppresses [pattern] text = true ↔ text = pattern) ∧
      (excludes [pattern] text = true ↔ pattern.toList <:+: text.toList)) ∧
    (∀ patterns text, suppresses patterns text = true → excludes patterns text = true) ∧
    (∀ patterns others, SameWellFormed patterns others → ∀ text,
      suppresses patterns text = suppresses others text ∧
      excludes patterns text = excludes others text) := by
  intro suppresses excludes
  refine ⟨?_, ?_, ?_, ?_⟩
  · intro pattern text hspecial
    simp only [suppresses, excludes]
    rw [Config.suppresses_singleton, Context.fits_singleton, fits_of_special hspecial]
  · intro pattern text hliteral
    simp only [suppresses, excludes]
    rw [Config.suppresses_singleton, Context.fits_singleton,
      NamePattern.fits_literal_iff hliteral,
      Glob.fits_literal_iff (isLiteral_of_not_special hliteral)]
    exact ⟨Iff.rfl, Iff.rfl⟩
  · intro patterns text hsuppressed
    obtain ⟨pattern, hmem, hfits⟩ := List.any_eq_true.1 hsuppressed
    exact List.any_eq_true.2 ⟨pattern, hmem, fits_of_fits_glob hfits⟩
  · intro patterns others hsame text
    exact ⟨Config.suppresses_congr hsame, Context.fits_congr hsame⟩

/--
A literal glob leaves out one source, whatever ill-formed glob stands beside it, but
as a pattern it leaves out longer names too.
-/
theorem Config.suppression_of_one_source :
    let config : Config := { Config.default with suppressedFiles := ["a**", "lib/a.rb"] }
    let context := Context.bare .class "lib/a.rb.erb" 1
    config.suppresses ⟨"lib/a.rb"⟩ = true ∧
    config.suppresses ⟨"lib/a.rb.erb"⟩ = false ∧
    context.fits ["a**", "lib/a.rb"] = true := by
  intro config context
  obtain ⟨-, hliteral, -, hsame⟩ := suppression_and_exclusion config context
  have hpattern : ¬ Special "lib/a.rb" := by decide +kernel
  have hstars : "a**".toList = ['a', '*', '*'] := by decide +kernel
  have hill : Glob.IllFormed true "a**".toList := by
    rw [hstars]
    exact .later (.char (by decide) (by decide) (by decide)) (.here .starsAfterText)
  have hpatterns : SameWellFormed ["a**", "lib/a.rb"] ["lib/a.rb"] := by
    intro pattern hwell
    have hne : pattern ≠ "a**" := by
      rintro rfl
      exact hwell hill
    simp [hne]
  refine ⟨?_, ?_, ?_⟩
  · exact (hsame _ _ hpatterns "lib/a.rb").1.trans ((hliteral _ _ hpattern).1.2 rfl)
  · rw [Bool.eq_false_iff]
    intro hsuppressed
    have hone := (hsame _ _ hpatterns "lib/a.rb.erb").1.symm.trans hsuppressed
    exact absurd ((hliteral _ _ hpattern).1.1 hone) (by decide)
  · exact (hsame _ _ hpatterns "lib/a.rb.erb").2.trans
      ((hliteral _ _ hpattern).2.2 ⟨[], ".erb".toList, by decide +kernel⟩)

end Sources

end CodeSmells
