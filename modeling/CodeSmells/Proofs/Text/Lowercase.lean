import CodeSmells.Text.Lowercase
import Mathlib.Data.List.Forall2
import Mathlib.Data.String.Basic

/-!
# Texts with a lowercase form in ASCII

Two letters of ASCII are also the first character of a lowercase form of something
else: the capital I with a dot gives an `i` and a mark, and the Kelvin sign gives a
`k`.  A word without these two is the lowercase form of its own ASCII spellings and
of no other text.

**Results.**

* `distance_of_mem_lowercaseRuns`: where the lowercase letters of the tables are.
* `exists_head_lowerFrom`: no other character than those of ASCII gives a `Plain` letter.
* `lowercase_eq_iff`: the texts whose lowercase form is a word of plain letters.
-/

namespace CodeSmells.Text

/-- A lowercase letter of ASCII that is no part of another lowercase form. -/
def Plain (letter : Char) : Prop :=
  97 ≤ letter.toNat ∧ letter.toNat ≤ 122 ∧ letter ≠ 'i' ∧ letter ≠ 'k'

instance (letter : Char) : Decidable (Plain letter) :=
  inferInstanceAs (Decidable (_ ∧ _ ∧ _ ∧ _))

/-- A character is a letter, or the ASCII capital of this letter. -/
def IsCaseOf (c letter : Char) : Prop :=
  c = letter ∨ 65 ≤ c.toNat ∧ c.toNat ≤ 90 ∧ c.toNat + 32 = letter.toNat

instance (c letter : Char) : Decidable (IsCaseOf c letter) :=
  inferInstanceAs (Decidable (_ ∨ _))

/-- A text is spelled like a word of lowercase letters, up to ASCII capitals. -/
def IsCaseVariant (text word : String) : Prop :=
  List.Forall₂ IsCaseOf text.toList word.toList

instance (text word : String) : Decidable (IsCaseVariant text word) :=
  decidable_of_iff
    (List.all₂ (fun c letter => decide (IsCaseOf c letter)) text.toList word.toList = true)
    (by simp only [List.all₂_eq_true, decide_eq_true_eq, IsCaseVariant])

section Characters

variable {c letter : Char}

/-- The capitals of ASCII are moved to the lowercase letters, and nothing else is. -/
theorem toNat_toLower (c : Char) :
    c.toLower.toNat = if 65 ≤ c.toNat ∧ c.toNat ≤ 90 then c.toNat + 32 else c.toNat := by
  have hcapital : c.val ≥ 'A'.val ∧ c.val ≤ 'Z'.val ↔ 65 ≤ c.toNat ∧ c.toNat ≤ 90 :=
    and_congr UInt32.le_iff_toNat_le UInt32.le_iff_toNat_le
  by_cases h : 65 ≤ c.toNat ∧ c.toNat ≤ 90
  · have hlower : c.toLower.val = c.val + ('a'.val - 'A'.val) :=
      congrArg Char.val (dif_pos (hcapital.2 h))
    have hval : c.val.toNat = c.toNat := rfl
    have hdistance : ('a'.val - 'A'.val).toNat = 32 := rfl
    rw [if_pos h, Char.toNat, hlower, UInt32.toNat_add, hval, hdistance]
    omega
  · have hlower : c.toLower = c := dif_neg (mt hcapital.1 h)
    rw [if_neg h, hlower]

/-- In ASCII, the characters whose lowercase form is a letter are this letter and its capital. -/
theorem toLower_eq_iff (hletter : Plain letter) : c.toLower = letter ↔ IsCaseOf c letter := by
  obtain ⟨hfirst, hlast, -⟩ := hletter
  rw [IsCaseOf, ← Char.toNat_inj, ← Char.toNat_inj, toNat_toLower]
  split <;> omega

/-- A character that is spelled like a letter of ASCII is one of ASCII. -/
theorem IsCaseOf.lt (h : IsCaseOf c letter) (hletter : Plain letter) : c.toNat < 128 := by
  obtain ⟨-, hlast, -⟩ := hletter
  rcases h with rfl | ⟨-, hcapital, -⟩ <;> omega

/-- The character of a number has this number, if there is one; otherwise it is the first one. -/
theorem toNat_ofNat_cases (n : Nat) : (Char.ofNat n).toNat = n ∨ (Char.ofNat n).toNat = 0 := by
  by_cases hvalid : n.isValidChar
  · left
    rw [Char.ofNat, dif_pos hvalid]
    exact UInt32.toNat_ofNatLT
  · right
    rw [Char.ofNat, dif_neg hvalid]
    rfl

/-- The lowercase letters of the tables are beyond ASCII, but for the one of the Kelvin sign. -/
theorem distance_of_mem_lowercaseRuns {first last step : Nat} {distance : Int}
    (h : (first, last, step, distance) ∈ lowercaseRuns) :
    128 ≤ (first : Int) + distance ∨ first = 0x212a ∧ last = 0x212a ∧ distance = -8383 := by
  have hall : ∀ run ∈ lowercaseRuns, 128 ≤ (run.1 : Int) + run.2.2.2 ∨
      run.1 = 0x212a ∧ run.2.1 = 0x212a ∧ run.2.2.2 = -8383 := by decide +kernel
  exact hall _ h

/-- No character beyond ASCII has a lowercase form that starts with a plain letter. -/
theorem exists_head_lowerChar (h : 128 ≤ c.toNat) :
    ∃ head tail, lowerChar c = head :: tail ∧ ¬ Plain head := by
  rw [lowerChar, if_neg (by omega)]
  split
  next => exact ⟨_, _, rfl, fun hplain => hplain.2.2.1 rfl⟩
  next =>
    split
    next first last step distance hfound =>
      refine ⟨_, _, rfl, ?_⟩
      rintro ⟨hleast, hmost, -, hkelvin⟩
      have hrange := List.find?_some hfound
      simp only [Bool.and_eq_true, decide_eq_true_eq] at hrange
      obtain ⟨⟨hfirst, hlast⟩, -⟩ := hrange
      rcases distance_of_mem_lowercaseRuns (List.mem_of_find?_eq_some hfound) with
        hfar | ⟨rfl, rfl, rfl⟩
      · rcases toNat_ofNat_cases ((c.toNat : Int) + distance).toNat with hcode | hcode <;> omega
      · have hsign : c.toNat = 0x212a := Nat.le_antisymm hlast hfirst
        rw [hsign] at hkelvin
        exact hkelvin rfl
    next =>
      refine ⟨c, [], rfl, fun hplain => ?_⟩
      have hmost := hplain.2.1
      omega

end Characters

section Texts

variable {c : Char} {before rest letters : List Char}

/-- Characters of ASCII have their lowercase form wherever they stand. -/
theorem lowerFrom_cons_of_lt (h : c.toNat < 128) :
    lowerFrom before (c :: rest) = c.toLower :: lowerFrom (c :: before) rest := by
  rw [lowerFrom, if_neg (by omega), lowerChar, if_pos h]
  rfl

/-- No character beyond ASCII makes a text start with a plain letter, wherever it stands. -/
theorem exists_head_lowerFrom (before rest : List Char) (h : 128 ≤ c.toNat) :
    ∃ head tail, lowerFrom before (c :: rest) = head :: tail ∧ ¬ Plain head := by
  rw [lowerFrom]
  by_cases hsigma : c.toNat = 0x3A3
  · rw [if_pos hsigma]
    refine ⟨_, _, rfl, ?_⟩
    split
    · decide
    · decide
  · obtain ⟨head, tail, hlower, hplain⟩ := exists_head_lowerChar h
    rw [if_neg hsigma, hlower]
    exact ⟨head, tail ++ lowerFrom (c :: before) rest, rfl, hplain⟩

/-- The characters whose lowercase form is a word of plain letters. -/
theorem lowerFrom_eq_iff (hletters : ∀ letter ∈ letters, Plain letter) (cs : List Char) :
    lowerFrom before cs = letters ↔ List.Forall₂ IsCaseOf cs letters := by
  induction cs generalizing before letters with
  | nil => rw [lowerFrom, List.forall₂_nil_left_iff, eq_comm]
  | cons c cs ih =>
      cases letters with
      | nil =>
          by_cases hascii : c.toNat < 128
          · simp [lowerFrom_cons_of_lt hascii]
          · obtain ⟨head, tail, hlower, -⟩ :=
              exists_head_lowerFrom before cs (Nat.le_of_not_lt hascii)
            simp [hlower]
      | cons letter letters =>
          obtain ⟨hletter, hrest⟩ := List.forall_mem_cons.1 hletters
          by_cases hascii : c.toNat < 128
          · rw [lowerFrom_cons_of_lt hascii, List.forall₂_cons, List.cons.injEq,
              toLower_eq_iff hletter, ih hrest]
          · obtain ⟨head, tail, hlower, hplain⟩ :=
              exists_head_lowerFrom before cs (Nat.le_of_not_lt hascii)
            rw [hlower]
            constructor
            · intro heq
              exact absurd ((List.cons.inj heq).1 ▸ hletter) hplain
            · intro hvariant
              exact absurd ((List.forall₂_cons.1 hvariant).1.lt hletter) hascii

/-- The texts whose lowercase form is a word of plain letters are its ASCII spellings. -/
theorem lowercase_eq_iff {word : String} (hword : ∀ letter ∈ word.toList, Plain letter)
    (text : String) : lowercase text = word ↔ IsCaseVariant text word := by
  rw [lowercase, ← String.toList_inj, String.toList_ofList, lowerFrom_eq_iff hword]
  rfl

end Texts

end CodeSmells.Text
