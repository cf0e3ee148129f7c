import CodeSmells.Json.Printer
import CodeSmells.Proofs.Json.Grammar
import CodeSmells.Proofs.Json.Values

/-!
# Printed values are in the grammar

The text that is printed for a value is one of its texts.  Fractions are left
out here: they are printed with as few digits as tell them apart.

**Results.**

* `writes_integer`: an integer of 64 bits is printed as a literal for it.
* `quotes_quoted`: a text is printed as a quotation of it.
* `writes_render`: a value without fractions is printed as a text of it.
* `writes_layOut`: so it is on many lines.
-/

namespace CodeSmells.Json

section Integers

def decimals (n : Nat) : List Nat :=
  (Nat.toDigits 10 n).map fun c => c.toNat - 48

theorem decimals_of_lt {n : Nat} (h : n < 10) : decimals n = [n] := by
  rw [decimals, Nat.toDigits_of_lt_base h, List.map_singleton,
    Nat.toNat_digitChar_sub_48_of_lt_ten h]

theorem decimals_of_le {n : Nat} (h : 10 ≤ n) :
    decimals n = decimals (n / 10) ++ [n % 10] := by
  have hdigit : n % 10 < 10 := Nat.mod_lt n (by decide)
  rw [decimals, Nat.toDigits_of_base_le (by decide) h, List.map_append, List.map_singleton,
    Nat.toNat_digitChar_sub_48_of_lt_ten hdigit, decimals]

theorem gather_append {bound k m : Nat} {digits more : List Nat}
    (h : Literal.gather bound m digits = (k, [])) :
    Literal.gather bound m (digits ++ more) = Literal.gather bound k more := by
  induction digits generalizing m with
  | nil =>
      obtain ⟨rfl, -⟩ := Prod.mk.inj h
      rfl
  | cons d digits ih =>
      rw [Literal.gather] at h
      rw [List.cons_append, Literal.gather]
      by_cases hd : m * 10 + d < bound
      · rw [if_pos hd] at h ⊢
        exact ih h
      · rw [if_neg hd] at h
        cases h

/-- The digits of a number below the bound make up the number again. -/
theorem gather_decimals {bound n : Nat} (h : n < bound) :
    Literal.gather bound 0 (decimals n) = (n, []) := by
  induction n using Nat.strongRecOn with
  | ind n ih =>
      by_cases hn : n < 10
      · simp [decimals_of_lt hn, Literal.gather, h]
      · have hshorter : Literal.gather bound 0 (decimals (n / 10)) = (n / 10, []) :=
          ih (n / 10) (by omega) (by omega)
        have hback : n / 10 * 10 + n % 10 = n := by omega
        rw [decimals_of_le (by omega), gather_append hshorter]
        simp [Literal.gather, hback, h]

theorem decimals_ne_nil (n : Nat) : decimals n ≠ [] := by
  intro h
  have hlength := congrArg List.length h
  have hpos := Nat.length_toDigits_pos (b := 10) (n := n)
  simp only [decimals, List.length_map, List.length_nil] at hlength
  omega

/-- No number but zero starts with a zero. -/
theorem eq_zero_of_decimals {n : Nat} {digits : List Nat} (h : decimals n = 0 :: digits) :
    n = 0 := by
  induction n using Nat.strongRecOn generalizing digits with
  | ind n ih =>
      by_cases hsmall : n < 10
      · rw [decimals_of_lt hsmall] at h
        exact (List.cons.inj h).1
      · rw [decimals_of_le (by omega)] at h
        obtain ⟨first, front, hfront⟩ := List.exists_cons_of_ne_nil (decimals_ne_nil (n / 10))
        rw [hfront, List.cons_append] at h
        obtain ⟨rfl, -⟩ := List.cons.inj h
        have hquotient : n / 10 = 0 := ih (n / 10) (by omega) hfront
        omega

theorem decimals_ne_zero_cons (n d : Nat) (digits : List Nat) :
    decimals n ≠ 0 :: d :: digits := by
  intro h
  rw [eq_zero_of_decimals h, decimals_of_lt (by decide)] at h
  cases h

theorem digits_toDigits (n : Nat) : Digits (decimals n) (Nat.toDigits 10 n) := by
  apply Digits.digits
  · exact List.ne_nil_of_length_pos Nat.length_toDigits_pos
  · intro c hc
    exact Nat.isDigit_of_mem_toDigits (by decide) (by decide) hc

theorem spellsLiteral_decimals (negative : Bool) (n : Nat) :
    SpellsLiteral ⟨negative, decimals n, [], none⟩
      (signText negative ++ Nat.toDigits 10 n) := by
  have h : SpellsLiteral ⟨negative, decimals n, [], none⟩
      (signText negative ++ Nat.toDigits 10 n ++ [] ++ []) :=
    .literal (digits_toDigits n) (decimals_ne_zero_cons n) .none .none
  simpa using h

theorem value_decimals (negative : Bool) {n : Nat} (h : n < Nat.pow 2 64) :
    (⟨negative, decimals n, [], none⟩ : Literal).value = .ok (Literal.wholeValue negative n) := by
  rw [Literal.value]
  simp [gather_decimals h, Literal.isWhole]

/-- An integer of 64 bits is printed as a literal that stands for it. -/
theorem writes_integer {n : Int} (hlow : -2 ^ 63 ≤ n) (hhigh : n < 2 ^ 64) :
    Writes (.integer n) (toString n).toList := by
  cases n with
  | ofNat m =>
      have hm : m < Nat.pow 2 64 := by
        have hbound : Nat.pow 2 64 = 2 ^ 64 := rfl
        simp only [Int.ofNat_eq_natCast] at hhigh
        omega
      have htext : (toString (Int.ofNat m)).toList = signText false ++ Nat.toDigits 10 m := by
        have hprint : toString (Int.ofNat m) = toString m := rfl
        rw [hprint]
        simp [signText]
      rw [htext]
      exact .integer (spellsLiteral_decimals false m) (value_decimals false hm)
  | negSucc m =>
      have hm : m + 1 ≤ Nat.pow 2 63 := by
        have hbound : Nat.pow 2 63 = 2 ^ 63 := rfl
        omega
      have hfits : m + 1 < Nat.pow 2 64 := by
        have hdouble : Nat.pow 2 64 = Nat.pow 2 63 * 2 := rfl
        omega
      have htext : (toString (Int.negSucc m)).toList =
          signText true ++ Nat.toDigits 10 (m + 1) := by
        have hprint : toString (Int.negSucc m) = "-" ++ toString (m + 1) := rfl
        rw [hprint]
        simp [signText]
      have hvalue : Literal.wholeValue true (m + 1) = .integer (Int.negSucc m) := by
        have hrange : ¬ (m + 1 = 0 ∨ Nat.pow 2 63 < m + 1) := by omega
        rw [Literal.wholeValue, if_neg (by decide), if_neg hrange]
        rfl
      rw [htext]
      exact .integer (spellsLiteral_decimals true (m + 1)) (hvalue ▸ value_decimals true hfits)

end Integers

section Quotations

/-- The two digits that are printed for a control character write its number. -/
theorem hexUnit_hexDigit : ∀ n < 32,
    hexUnit? '0' '0' (hexDigit (n / 16)) (hexDigit (n % 16)) = some n := by
  decide +kernel

/-- A character is printed in one of the ways to write it inside quotes. -/
theorem quotedChars_escape (c : Char) {chars text : List Char} (h : QuotedChars chars text) :
    QuotedChars (c :: chars) (escape c ++ text) := by
  have hback : Char.ofNat c.toNat = c := Char.ofNat_toNat c
  have hletter : ∀ letter, escapeValue? letter = some c →
      QuotedChars (c :: chars) (['\\', letter] ++ text) := fun letter hl => .escaped hl h
  unfold escape
  split
  next hc => exact hletter '"' (by rw [hc]; decide)
  split
  next hc => exact hletter '\\' (by rw [hc]; decide)
  split
  next hc => exact hletter 'n' (by rw [hc]; decide)
  split
  next hc => exact hletter 'r' (by rw [hc]; decide)
  split
  next hc => exact hletter 't' (by rw [hc]; decide)
  split
  next hc => exact hletter 'b' (by rw [← hback, hc]; decide)
  split
  next hc => exact hletter 'f' (by rw [← hback, hc]; decide)
  split
  next hquote hslash _ _ _ _ _ hcontrol =>
      have hcode := hexUnit_hexDigit c.toNat hcontrol
      have hleading : Quotation.isLeading c.toNat = false := by
        simp only [Quotation.isLeading, Bool.and_eq_false_iff, decide_eq_false_iff_not]
        omega
      have htrailing : Quotation.isTrailing c.toNat = false := by
        simp only [Quotation.isTrailing, Bool.and_eq_false_iff, decide_eq_false_iff_not]
        omega
      have hunit := QuotedChars.unit hcode hleading htrailing h
      rw [hback] at hunit
      exact hunit
  next hquote hslash _ _ _ _ _ hcontrol => exact .plain hquote hslash (by omega) h

theorem quotedChars_flatMap_escape (chars : List Char) :
    QuotedChars chars (chars.flatMap escape) := by
  induction chars with
  | nil => exact .nil
  | cons c chars ih =>
      rw [List.flatMap_cons]
      exact quotedChars_escape c ih

theorem quotes_quoted (content : String) : Quotes content (quoted content) :=
  .quotes (quotedChars_flatMap_escape content.toList)

end Quotations

section Values

/-- Behind a comma, items may follow another one. -/
theorem WritesItems.later {item : Json} {items : List Json} {text : List Char}
    (h : WritesItems true (item :: items) text) :
    WritesItems false (item :: items) (',' :: text) := by
  cases h with
  | item hlead hitem hmore =>
      cases hlead with
      | first hblanks => exact .item (.later blank_nil hblanks) hitem hmore

theorem WritesMembers.later {member : String × Json} {members : List (String × Json)}
    {text : List Char} (h : WritesMembers true (member :: members) text) :
    WritesMembers false (member :: members) (',' :: text) := by
  cases h with
  | member hlead hkey hbefore hafter hvalue hmore =>
      cases hlead with
      | first hblanks =>
          exact .member (.later blank_nil hblanks) hkey hbefore hafter hvalue hmore

/-- Items that are printed as texts of them make up a text of their array. -/
theorem writesItems_renderItems {items : List Json} (h : ∀ v ∈ items, Writes v v.render) :
    WritesItems true items (renderItems items ++ [']']) := by
  induction items with
  | nil => exact .close blank_nil
  | cons item rest ih =>
      have hitem : Writes item item.render := h item (by simp)
      have hrest := ih fun v hmem => h v (by simp [hmem])
      cases rest with
      | nil => exact .item (.first blank_nil) hitem (.close blank_nil)
      | cons next rest =>
          have hwrites := WritesItems.item (.first blank_nil) hitem hrest.later
          simpa [renderItems] using hwrites

/-- Members whose values are printed as texts of them make up a text of their object. -/
theorem writesMembers_renderMembers {members : List (String × Json)}
    (h : ∀ e ∈ members, Writes e.2 e.2.render) :
    WritesMembers true members (renderMembers members ++ ['}']) := by
  induction members with
  | nil => exact .close blank_nil
  | cons member rest ih =>
      obtain ⟨name, value⟩ := member
      have hvalue : Writes value value.render := h (name, value) (by simp)
      have hrest := ih fun e hmem => h e (by simp [hmem])
      cases rest with
      | nil =>
          have hwrites := WritesMembers.member (.first blank_nil) (quotes_quoted name) blank_nil
            blank_nil hvalue (.close blank_nil)
          simpa [renderMembers] using hwrites
      | cons next rest =>
          have hwrites := WritesMembers.member (.first blank_nil) (quotes_quoted name) blank_nil
            blank_nil hvalue hrest.later
          simpa [renderMembers] using hwrites

theorem writes_array {items : List Json} (h : ∀ v ∈ items, Writes v v.render) :
    Writes (.array items) (render (.array items)) :=
  .array (writesItems_renderItems h)

theorem writes_object {members : List (String × Json)}
    (h : ∀ e ∈ members, Writes e.2 e.2.render) :
    Writes (.object members) (render (.object members)) :=
  .object (writesMembers_renderMembers h)

theorem writes_text (content : String) : Writes (.text content) (render (.text content)) :=
  .text (quotes_quoted content)

theorem writes_bool (b : Bool) : Writes (.bool b) (render (.bool b)) := by
  have htrue : render (.bool true) = ['t', 'r', 'u', 'e'] := by decide +kernel
  have hfalse : render (.bool false) = ['f', 'a', 'l', 's', 'e'] := by decide +kernel
  cases b with
  | true => exact htrue ▸ .trueWord
  | false => exact hfalse ▸ .falseWord

/-- A value whose numbers are integers of 64 bits is printed as a text of it. -/
theorem writes_render (value : Json) (hreal : ∀ x, ¬ Inside (.real x) value)
    (hrange : ∀ n, Inside (.integer n) value → -2 ^ 63 ≤ n ∧ n < 2 ^ 64) :
    Writes value value.render := by
  induction value using induction_on with
  | null =>
      have hword : render .null = ['n', 'u', 'l', 'l'] := by decide +kernel
      rw [hword]
      exact .nullWord
  | bool b => exact writes_bool b
  | integer n =>
      obtain ⟨hlow, hhigh⟩ := hrange n .self
      exact writes_integer hlow hhigh
  | real x => exact absurd .self (hreal x)
  | text s => exact writes_text s
  | array items ih =>
      apply writes_array
      intro v hmem
      exact ih v hmem (fun x hx => hreal x (.item hmem hx)) (fun n hn => hrange n (.item hmem hn))
  | object members ih =>
      apply writes_object
      intro e hmem
      exact ih e hmem (fun x hx => hreal x (.member hmem hx))
        (fun n hn => hrange n (.member hmem hn))

end Values

section Layout

theorem blank_newLine (depth : Nat) : Blank (newLine depth) := by
  intro c hc
  rcases List.mem_cons.1 hc with rfl | hc
  · decide
  · rw [List.eq_of_mem_replicate hc]
    decide

theorem blank_space : Blank [' '] := by
  intro c hc
  rw [List.mem_singleton.1 hc]
  decide

variable {depth outer : Nat}

/-- Items on lines of their own make up a text of their array. -/
theorem writesItems_layOutItems {items : List Json} (hne : items ≠ [])
    (h : ∀ v ∈ items, Writes v (v.layOut depth)) :
    WritesItems true items (layOutItems depth items ++ newLine outer ++ [']']) := by
  induction items with
  | nil => exact absurd rfl hne
  | cons item rest ih =>
      have hitem : Writes item (item.layOut depth) := h item (by simp)
      have hlead : Lead true (newLine depth) := .first (blank_newLine depth)
      cases rest with
      | nil =>
          have hwrites := WritesItems.item hlead hitem (.close (blank_newLine outer))
          simpa [layOutItems] using hwrites
      | cons next rest =>
          have hrest := ih (List.cons_ne_nil next rest) fun v hmem => h v (by simp [hmem])
          have hwrites := WritesItems.item hlead hitem hrest.later
          simpa [layOutItems] using hwrites

/-- Members on lines of their own make up a text of their object. -/
theorem writesMembers_layOutMembers {members : List (String × Json)} (hne : members ≠ [])
    (h : ∀ e ∈ members, Writes e.2 (e.2.layOut depth)) :
    WritesMembers true members (layOutMembers depth members ++ newLine outer ++ ['}']) := by
  induction members with
  | nil => exact absurd rfl hne
  | cons member rest ih =>
      obtain ⟨name, value⟩ := member
      have hvalue : Writes value (value.layOut depth) := h (name, value) (by simp)
      have hlead : Lead true (newLine depth) := .first (blank_newLine depth)
      cases rest with
      | nil =>
          have hwrites := WritesMembers.member hlead (quotes_quoted name) blank_nil blank_space
            hvalue (.close (blank_newLine outer))
          simpa [layOutMembers] using hwrites
      | cons next rest =>
          have hrest := ih (List.cons_ne_nil next rest) fun e hmem => h e (by simp [hmem])
          have hwrites := WritesMembers.member hlead (quotes_quoted name) blank_nil blank_space
            hvalue hrest.later
          simpa [layOutMembers] using hwrites

/-- A value whose numbers are integers of 64 bits is laid out as a text of it. -/
theorem writes_layOut (value : Json) (hreal : ∀ x, ¬ Inside (.real x) value)
    (hrange : ∀ n, Inside (.integer n) value → -2 ^ 63 ≤ n ∧ n < 2 ^ 64) (depth : Nat) :
    Writes value (value.layOut depth) := by
  induction value using induction_on generalizing depth with
  | null | bool | integer | real | text => exact writes_render _ hreal hrange
  | array items ih =>
      cases items with
      | nil => exact .array (.close blank_nil)
      | cons item rest =>
          have hitems : ∀ v ∈ item :: rest, Writes v (v.layOut (depth + 1)) := fun v hmem =>
            ih v hmem (fun x hx => hreal x (.item hmem hx)) (fun n hn => hrange n (.item hmem hn))
              (depth + 1)
          rw [layOut]
          · exact .array (writesItems_layOutItems (List.cons_ne_nil item rest) hitems)
          · nofun
  | object members ih =>
      cases members with
      | nil => exact .object (.close blank_nil)
      | cons member rest =>
          have hvalues : ∀ e ∈ member :: rest, Writes e.2 (e.2.layOut (depth + 1)) := fun e hmem =>
            ih e hmem (fun x hx => hreal x (.member hmem hx))
              (fun n hn => hrange n (.member hmem hn)) (depth + 1)
          rw [layOut]
          · exact .object (writesMembers_layOutMembers (List.cons_ne_nil member rest) hvalues)
          · nofun

end Layout

end CodeSmells.Json
