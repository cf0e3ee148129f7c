import CodeSmells.Proofs.Json.Printing
import CodeSmells.Proofs.Json.Results
import Mathlib.Data.List.Induction

/-!
# The text of a natural number

A natural number of 64 bits has one text: its digits, without a sign, a point or
an exponent, and without a zero in front.  Larger numbers have none, since their
literals are read as fractions.

**Results.**

* `eq_toDigits_of_gather`: digits are those of the number that they make up.
* `writes_natural_iff`: the texts of a natural number.
-/

namespace CodeSmells.Json

section Digits

theorem digitChar_of_isDigit {c : Char} (h : c.isDigit = true) :
    Nat.digitChar (c.toNat - 48) = c := by
  have hlow : 48 ≤ c.toNat := (Char.isDigit_iff_toNat.1 h).1
  have hhigh : c.toNat ≤ 57 := (Char.isDigit_iff_toNat.1 h).2
  have hall : ∀ d < 10, Nat.digitChar d = Char.ofNat (d + 48) := by decide
  rw [hall _ (by omega), Nat.sub_add_cancel hlow, Char.ofNat_toNat]

/-- The last digit counts once, and those in front of it ten times. -/
theorem exists_of_gather_concat {bound m n d : Nat} {digits : List Nat}
    (h : Literal.gather bound m (digits ++ [d]) = (n, [])) :
    ∃ k, Literal.gather bound m digits = (k, []) ∧ n = k * 10 + d := by
  induction digits generalizing m with
  | nil =>
      rw [List.nil_append, Literal.gather] at h
      by_cases hd : m * 10 + d < bound
      · rw [if_pos hd] at h
        cases h
        exact ⟨m, rfl, rfl⟩
      · rw [if_neg hd] at h
        cases h
  | cons first digits ih =>
      rw [List.cons_append, Literal.gather] at h
      by_cases hfirst : m * 10 + first < bound
      · rw [if_pos hfirst] at h
        rw [Literal.gather, if_pos hfirst]
        exact ih h
      · rw [if_neg hfirst] at h
        cases h

/-- Digits without a zero in front are those of the number that they make up. -/
theorem eq_toDigits_of_gather {bound n : Nat} {text : List Char} (hne : text ≠ [])
    (hdigits : ∀ c ∈ text, c.isDigit = true) (hzero : ∀ c rest, text ≠ '0' :: c :: rest)
    (h : Literal.gather bound 0 (text.map fun c => c.toNat - 48) = (n, [])) :
    text = Nat.toDigits 10 n := by
  induction text using List.reverseRecOn generalizing n with
  | nil => exact absurd rfl hne
  | append_singleton front c ih =>
      have hc : c.isDigit = true := hdigits c (by simp)
      have hsmall : c.toNat - 48 < 10 := by
        have hhigh : c.toNat ≤ 57 := (Char.isDigit_iff_toNat.1 hc).2
        omega
      rw [List.map_append, List.map_singleton] at h
      obtain ⟨k, hk, rfl⟩ := exists_of_gather_concat h
      by_cases hfront : front = []
      · subst hfront
        cases hk
        rw [Nat.zero_mul, Nat.zero_add, Nat.toDigits_of_lt_base hsmall, digitChar_of_isDigit hc]
        rfl
      · have hfrontZero : ∀ d rest, front ≠ '0' :: d :: rest := by
          rintro d rest rfl
          exact hzero d (rest ++ [c]) rfl
        have hdigitsOf := ih hfront (fun d hd => hdigits d (by simp [hd])) hfrontZero hk
        have hpos : k ≠ 0 := by
          rintro rfl
          exact hzero c [] (by rw [hdigitsOf]; rfl)
        have hquotient : (k * 10 + (c.toNat - 48)) / 10 = k := by omega
        have hremainder : (k * 10 + (c.toNat - 48)) % 10 = c.toNat - 48 := by omega
        rw [Nat.toDigits_of_base_le (by decide) (by omega), hquotient, hremainder,
          digitChar_of_isDigit hc, ← hdigitsOf]

end Digits

section Texts

variable {n : Nat} {text : List Char}

/-- Only a literal without a sign stands for a natural number. -/
theorem eq_of_wholeValue {negative : Bool} {significand : Nat}
    (h : Literal.wholeValue negative significand = .natural n) :
    negative = false ∧ significand = n := by
  cases negative with
  | false => simpa [Literal.wholeValue, natural, Int.natCast_inj] using h
  | true =>
      rw [Literal.wholeValue, if_neg (by decide)] at h
      split at h
      next => cases h
      next hrange =>
          simp only [natural, Json.integer.injEq] at h
          omega

theorem Digits.eq_map {digits : List Nat} (h : Digits digits text) :
    text ≠ [] ∧ (∀ c ∈ text, c.isDigit = true) ∧ digits = text.map fun c => c.toNat - 48 := by
  cases h with
  | digits hne hall => exact ⟨hne, hall, rfl⟩

/-- A literal without a point and an exponent is written as its sign and its digits. -/
theorem SpellsLiteral.digits_of_isWhole {literal : Literal} (h : SpellsLiteral literal text)
    (hwhole : literal.isWhole = true) :
    ∃ wholeText, text = signText literal.negative ++ wholeText ∧
      Digits literal.whole wholeText ∧ ∀ d rest, literal.whole ≠ 0 :: d :: rest := by
  cases h with
  | @literal _ _ fraction _ wholeText _ _ hdigits hzero hfraction hexponent =>
      simp only [Literal.isWhole, Bool.and_eq_true, List.isEmpty_iff,
        Option.isNone_iff_eq_none] at hwhole
      obtain ⟨hnone, rfl⟩ := hwhole
      cases hexponent
      cases hfraction with
      | none => exact ⟨wholeText, by simp, hdigits, hzero⟩
      | some hplaces =>
          obtain ⟨hne, -, hmap⟩ := hplaces.eq_map
          exact absurd (List.map_eq_nil_iff.1 (hmap.symm.trans hnone)) hne

/-- The texts of a natural number. -/
theorem writes_natural_iff :
    Writes (.natural n) text ↔ n < 2 ^ 64 ∧ text = (toString n).toList := by
  constructor
  · intro h
    cases h with
    | @integer _ literal _ hspells hvalue =>
        rcases wholeValue_or_signed_of_literal hvalue with ⟨hwhole, hrest, hn⟩ | ⟨x, hx⟩
        · obtain ⟨hnegative, hgather⟩ := eq_of_wholeValue hn.symm
          have hmade : Literal.gather (Nat.pow 2 64) 0 literal.whole = (n, []) :=
            Prod.ext hgather hrest
          have hfits : n < Nat.pow 2 64 := hgather ▸ gather_lt literal.whole (Nat.two_pow_pos 64)
          obtain ⟨digits, htext, hdigits, hzero⟩ := hspells.digits_of_isWhole hwhole
          obtain ⟨hne, hall, hmap⟩ := hdigits.eq_map
          have hfront : ∀ c rest, digits ≠ '0' :: c :: rest := by
            rintro c rest rfl
            exact hzero _ _ hmap
          have htoDigits := eq_toDigits_of_gather hne hall hfront (hmap ▸ hmade)
          refine ⟨hfits, ?_⟩
          rw [htext, hnegative, htoDigits]
          simp [signText]
        · cases hx
  · rintro ⟨hn, rfl⟩
    have hlow : -2 ^ 63 ≤ (n : Int) := by omega
    have hhigh : (n : Int) < 2 ^ 64 := by exact_mod_cast hn
    exact writes_integer hlow hhigh

end Texts

end CodeSmells.Json
