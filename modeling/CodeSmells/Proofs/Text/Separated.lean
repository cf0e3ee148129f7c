import Mathlib.Data.String.Basic

/-!
# Texts with separators

A text is taken apart at a separator of one character as the list of its characters is.
Texts without commas that are joined with commas are found again when the whole is taken
apart at the commas.

**Results.**

* `splitOn_char`, `splitOn_comma`: a text is taken apart as its characters are.
* `splitOn_joined`: what was joined is found again.
-/

namespace CodeSmells.Text

section Separators

variable {separator : String} {c : Char} (hget : String.Pos.Raw.get separator 0 = c)
  (hend : String.Pos.Raw.atEnd separator (String.Pos.Raw.next separator 0) = true)
include hget hend

/-- Looking for the text of one character is looking for the character. -/
theorem splitOnAux_char (text : String) (start here : String.Pos.Raw) (pieces : List String) :
    text.splitOnAux separator start here 0 pieces =
      text.splitAux (· == c) start here pieces := by
  have hback : ∀ place : String.Pos.Raw, place.unoffsetBy 0 = place := fun _ => rfl
  fun_induction String.splitAux text (· == c) start here pieces with
  | case1 start here pieces hatEnd => rw [String.splitOnAux, if_pos hatEnd]
  | case2 start here pieces hmore _ hfound next ih =>
      have hhere : String.Pos.Raw.get text here = c := beq_iff_eq.1 hfound
      -- The piece ends where the separator stands.
      have hbefore : next.unoffsetBy (String.Pos.Raw.next separator 0) = here := by
        simp only [next, String.Pos.Raw.next, hhere, hget]
        ext
        simp
      rw [String.splitOnAux, if_neg hmore, hget, if_pos hfound]
      simp only [hend, if_true]
      rw [hbefore]
      exact ih
  | case3 start here pieces hmore _ hother ih =>
      rw [String.splitOnAux, if_neg hmore, hget, if_neg hother, hback]
      exact ih

/-- A text is taken apart at a character as the list of its characters is. -/
theorem splitOn_char (hseparator : separator ≠ "") (text : String) :
    text.splitOn separator = (text.toList.splitOn c).map String.ofList := by
  rw [String.splitOn, if_neg (by simpa using hseparator), splitOnAux_char hget hend]
  exact String.splitToList_of_valid text _

/-- A text without the character is left whole. -/
theorem splitOn_of_notMem (hseparator : separator ≠ "") {text : String} (h : c ∉ text.toList) :
    text.splitOn separator = [text] := by
  rw [splitOn_char hget hend hseparator, List.splitOn_eq_singleton h, List.map_singleton,
    String.ofList_toList]

end Separators

theorem splitOn_comma (text : String) :
    text.splitOn "," = (text.toList.splitOn ',').map String.ofList :=
  splitOn_char rfl rfl (by decide) text

theorem splitOn_comma_ne_nil (text : String) : text.splitOn "," ≠ [] := by
  rw [splitOn_comma, ne_eq, List.map_eq_nil_iff]
  exact List.splitOn_ne_nil ',' text.toList

/-- Texts that were joined with commas, and have none themselves, are found again. -/
theorem splitOn_joined {texts : List String} (hne : texts ≠ [])
    (h : ∀ text ∈ texts, ',' ∉ text.toList) :
    (String.intercalate "," texts).splitOn "," = texts := by
  have hparts : ∀ part ∈ texts.map String.toList, ',' ∉ part := by
    intro part hpart
    obtain ⟨text, htext, rfl⟩ := List.mem_map.1 hpart
    exact h text htext
  have hlist : (String.intercalate "," texts).toList =
      [','].intercalate (texts.map String.toList) := String.toList_intercalate
  rw [splitOn_comma, hlist, List.splitOn_intercalate ',' hparts (by simpa using hne),
    List.map_map]
  simp [Function.comp_def]

end CodeSmells.Text
