import CodeSmells.Json.Printer
import CodeSmells.Proofs.Fallible
import CodeSmells.Proofs.Json.Spelling

/-!
# Scanning what the grammar allows

A scanner of a text makes a tree that shows what the text spells and stops right
after it, wherever the text stands and whatever follows it.  A tree of a text of a
value holds the value.

**Results.**

* `scanQuotation_of_spells`, `scanLiteral_of_spells`: the parts without parts.
* `scanValue_of_spells`, `scanItems_of_spells`, `scanMembers_of_spells`: all spellings.
* `scan_of_spells`, `scan_of_writes`: whole documents.
-/

namespace CodeSmells.Json

section Heads

variable {p : Char → Bool} {text rest : List Char}

/-- The text does not start with a character that has the property. -/
def HeadNot (p : Char → Bool) (text : List Char) : Prop :=
  ∀ c s, text = c :: s → p c = false

theorem headNot_nil : HeadNot p [] := by
  intro c s h
  cases h

theorem headNot_cons {c : Char} (h : p c = false) : HeadNot p (c :: text) := by
  intro d s hd
  cases hd
  exact h

/-- The characters with the property are the run that was put in front. -/
theorem takeWhile_append_of_headNot (hall : ∀ c ∈ text, p c = true) (hrest : HeadNot p rest) :
    (text ++ rest).takeWhile p = text := by
  induction text with
  | nil =>
      cases rest with
      | nil => rfl
      | cons c s =>
          have hc : p c = false := hrest c s rfl
          simp [hc]
  | cons c text ih =>
      have hc : p c = true := hall c (by simp)
      have htext : ∀ d ∈ text, p d = true := fun d hd => hall d (by simp [hd])
      rw [List.cons_append, List.takeWhile_cons, if_pos hc, ih htext]

/-- What stands after a value: nothing, a blank, or what goes on with or ends a container. -/
def Follows (rest : List Char) : Prop :=
  ∀ c s, rest = c :: s → Cursor.isBlank c = true ∨ c = ',' ∨ c = ']' ∨ c = '}'

/-- None of it can be taken for a part of a number. -/
theorem Follows.headNot (h : Follows rest) (hp : ∀ c, p c = true → c.isDigit = true ∨
    c = '.' ∨ c = 'e' ∨ c = 'E') : HeadNot p rest := by
  intro c s hc
  rw [← Bool.not_eq_true]
  intro hpc
  have hblank : ∀ d, Cursor.isBlank d = true → d = ' ' ∨ d = '\t' ∨ d = '\n' ∨ d = '\r' := by
    intro d hd
    simpa [Cursor.isBlank, or_assoc] using hd
  have hshape := h c s hc
  have hnumber := hp c hpc
  rcases hshape with hb | rfl | rfl | rfl
  · rcases hblank c hb with rfl | rfl | rfl | rfl <;> simp_all
  · simp_all
  · simp_all
  · simp_all

end Heads

section Blanks

variable (place : Nat) {blanks rest : List Char}

/-- Blanks are passed over up to what follows them. -/
theorem skipBlanks_append (hblanks : Blank blanks) (hrest : HeadNot Cursor.isBlank rest) :
    (⟨place, blanks ++ rest⟩ : Cursor).skipBlanks = ⟨place + blanks.length, rest⟩ := by
  rw [Cursor.skipBlanks, takeWhile_append_of_headNot hblanks hrest, Cursor.pass,
    List.drop_left]

theorem skipBlanks_of_headNot (hrest : HeadNot Cursor.isBlank rest) :
    (⟨place, rest⟩ : Cursor).skipBlanks = ⟨place, rest⟩ := by
  simpa using skipBlanks_append place blank_nil hrest

end Blanks

section Quotations

/-- No letter of its own is an escape for hexadecimal digits. -/
theorem ne_u_of_escapeValue {letter c : Char} (h : escapeValue? letter = some c) :
    letter ≠ 'u' := by
  rintro rfl
  simp [escapeValue?] at h

/-- Pieces are scanned up to the closing quote. -/
theorem scanPieces_of_spells {pieces : List Piece} {text : List Char}
    (h : SpellsPieces pieces text) (place : Nat) (rest : List Char) :
    ∃ stop, scanPieces place (text ++ '"' :: rest) = (pieces, .ok stop, rest) := by
  induction h generalizing place with
  | nil => exact ⟨place + 1, by simp [scanPieces]⟩
  | @plain c pieces text hquote hslash hcontrol _ ih =>
      obtain ⟨stop, hscan⟩ := ih (place + c.utf8Size)
      have hvisible : ¬ c.toNat < 32 := by omega
      exact ⟨stop, by simp [scanPieces, hvisible, hscan, hslash]⟩
  | @escaped c letter pieces text hletter _ ih =>
      obtain ⟨stop, hscan⟩ := ih (place + 2)
      exact ⟨stop, by simp [scanPieces, hletter, hscan, ne_u_of_escapeValue hletter]⟩
  | @unit a b c d code pieces text hcode _ ih =>
      obtain ⟨stop, hscan⟩ := ih (place + 6)
      exact ⟨stop, by simp [scanPieces, hcode, hscan]⟩

/-- A quotation is scanned up to its closing quote. -/
theorem scanQuotation_of_spells {pieces : List Piece} {text : List Char}
    (h : SpellsPieces pieces text) (place : Nat) (rest : List Char) :
    ∃ stop, scanQuotation ⟨place, '"' :: (text ++ '"' :: rest)⟩ =
      (⟨place, pieces, .ok stop⟩, some ⟨stop, rest⟩) := by
  obtain ⟨stop, hscan⟩ := scanPieces_of_spells h (place + 1) rest
  exact ⟨stop, by simp [scanQuotation, hscan]⟩

end Quotations

section Numbers

variable (place : Nat) {text rest : List Char}

theorem scanDigits_of_digits {digits : List Nat} (h : Digits digits text)
    (hrest : HeadNot Char.isDigit rest) :
    scanDigits ⟨place, text ++ rest⟩ = .ok (digits, ⟨place + text.length, rest⟩) := by
  cases h with
  | digits hne hall =>
      have hdigits : digitsOf (text ++ rest) = text.map fun c => c.toNat - 48 := by
        rw [digitsOf, takeWhile_append_of_headNot hall hrest]
      obtain ⟨c, s, rfl⟩ := List.exists_cons_of_ne_nil hne
      rw [scanDigits, hdigits]
      simp [Cursor.pass]

theorem scanWhole_of_digits {digits : List Nat} (h : Digits digits text)
    (hzero : ∀ d ds, digits ≠ 0 :: d :: ds) (hrest : HeadNot Char.isDigit rest) :
    scanWhole ⟨place, text ++ rest⟩ = .ok (digits, ⟨place + text.length, rest⟩) := by
  have hscan := scanDigits_of_digits place h hrest
  rw [scanWhole, hscan]
  match digits, hzero with
  | [], _ => rfl
  | [0], _ => rfl
  | 0 :: d :: ds, hzero => exact absurd rfl (hzero d ds)
  | (n + 1) :: ds, _ => rfl

theorem scanFraction_of_fractionPart {fraction : List Nat} (h : FractionPart fraction text)
    (hdigit : HeadNot Char.isDigit rest) (hpoint : HeadNot (· == '.') rest) :
    scanFraction ⟨place, text ++ rest⟩ = .ok (fraction, ⟨place + text.length, rest⟩) := by
  cases h with
  | none =>
      cases rest with
      | nil => simp [scanFraction]
      | cons c s =>
          have hc : (c == '.') = false := hpoint c s rfl
          simp_all [scanFraction]
  | some hdigits =>
      have hscan := scanDigits_of_digits (place + 1) hdigits hdigit
      simp only [scanFraction, List.cons_append, Cursor.pass, List.drop_succ_cons, List.drop_zero,
        hscan, List.length_cons]
      rw [Nat.add_assoc, Nat.add_comm 1]

theorem scanExponent_of_exponentPart {exponent : Option (Bool × List Nat)}
    (h : ExponentPart exponent text) (hdigit : HeadNot Char.isDigit rest)
    (hletter : HeadNot (fun c => c == 'e' || c == 'E') rest) :
    scanExponent ⟨place, text ++ rest⟩ = .ok (exponent, ⟨place + text.length, rest⟩) := by
  cases h with
  | none =>
      cases rest with
      | nil => simp [scanExponent]
      | cons c s =>
          have hc : (c == 'e' || c == 'E') = false := hletter c s rfl
          simp_all [scanExponent]
  | @some letter down digits sign text hletter hsign hdigits =>
      cases hsign with
      | none =>
          have hscan := scanDigits_of_digits (place + 1) hdigits hdigit
          obtain ⟨c, s, rfl, hc⟩ := hdigits.exists_head
          have hplus : c ≠ '+' := by rintro rfl; simp at hc
          have hminus : c ≠ '-' := by rintro rfl; simp at hc
          simp_all [scanExponent, Cursor.pass, Except.map]
          omega
      | plus =>
          have hscan := scanDigits_of_digits (place + 2) hdigits hdigit
          simp_all [scanExponent, Cursor.pass, Except.map]
          omega
      | minus =>
          have hscan := scanDigits_of_digits (place + 2) hdigits hdigit
          simp_all [scanExponent, Cursor.pass, Except.map]
          omega

theorem headNot_exponentPart {p : Char → Bool} {exponent : Option (Bool × List Nat)}
    (h : ExponentPart exponent text) (he : p 'e' = false) (hE : p 'E' = false)
    (hrest : HeadNot p rest) : HeadNot p (text ++ rest) := by
  cases h with
  | none => exact hrest
  | some hletter =>
      rcases hletter with rfl | rfl
      · exact headNot_cons he
      · exact headNot_cons hE

theorem headNot_fractionPart {p : Char → Bool} {fraction : List Nat}
    (h : FractionPart fraction text) (hpoint : p '.' = false)
    (hrest : HeadNot p rest) : HeadNot p (text ++ rest) := by
  cases h with
  | none => exact hrest
  | some => exact headNot_cons hpoint

/-- A minus is passed over; anything else is left for the digits. -/
theorem scanLiteral_sign (negative : Bool) {digits : List Nat} (h : Digits digits text) :
    scanLiteral ⟨place, signText negative ++ (text ++ rest)⟩ = (do
      let whole ← scanWhole ⟨place + (signText negative).length, text ++ rest⟩
      let fraction ← scanFraction whole.2
      let exponent ← scanExponent fraction.2
      .ok (⟨negative, whole.1, fraction.1, exponent.1⟩, exponent.2)) := by
  cases negative with
  | true => simp [scanLiteral, signText, Cursor.pass]
  | false =>
      obtain ⟨c, s, rfl, hc⟩ := h.exists_head
      have hminus : c ≠ '-' := by
        rintro rfl
        simp at hc
      simp [scanLiteral, signText, hminus]

/-- A number literal is scanned up to what follows it. -/
theorem scanLiteral_of_spells {literal : Literal} (h : SpellsLiteral literal text)
    (hrest : Follows rest) :
    ∃ next, scanLiteral ⟨place, text ++ rest⟩ = .ok (literal, ⟨next, rest⟩) := by
  cases h with
  | @literal negative whole fraction exponent wholeText fractionText exponentText
      hwhole hzero hfraction hexponent =>
      have hdigit : HeadNot Char.isDigit rest := hrest.headNot fun c hc => .inl hc
      have hpoint : HeadNot (· == '.') rest :=
        hrest.headNot fun c hc => .inr (.inl (beq_iff_eq.1 hc))
      have hletter : HeadNot (fun c => c == 'e' || c == 'E') rest :=
        hrest.headNot fun c hc => .inr (.inr (by simpa using hc))
      have hexponentDigit := headNot_exponentPart hexponent (by decide) (by decide) hdigit
      have hexponentPoint := headNot_exponentPart hexponent (by decide) (by decide) hpoint
      have hfractionDigit := headNot_fractionPart hfraction (by decide) hexponentDigit
      refine ⟨place + (signText negative).length + wholeText.length + fractionText.length +
        exponentText.length, ?_⟩
      simp only [List.append_assoc]
      rw [scanLiteral_sign place negative hwhole,
        scanWhole_of_digits _ hwhole hzero hfractionDigit]
      simp only [Fallible.ok_bind,
        scanFraction_of_fractionPart _ hfraction hexponentDigit hexponentPoint,
        scanExponent_of_exponentPart _ hexponent hdigit hletter]

end Numbers

section Starts

variable {fuel place : Nat} {rest : List Char}

theorem scanWord_append (place : Nat) (word rest : List Char) :
    scanWord ⟨place, word ++ rest⟩ word = .ok ⟨place + word.length, rest⟩ := by
  induction word generalizing place with
  | nil => rfl
  | cons letter word ih =>
      simp only [List.cons_append, scanWord, Cursor.pass, List.drop_succ_cons, List.drop_zero,
        if_true, ih, List.length_cons]
      rw [Nat.add_assoc, Nat.add_comm 1]

/-- A reader of a value passes over blanks first. -/
theorem scanValue_blanks {blanks : List Char} (hblanks : Blank blanks)
    (hrest : HeadNot Cursor.isBlank rest) :
    scanValue (fuel + 1) ⟨place, blanks ++ rest⟩ =
      scanValue (fuel + 1) ⟨place + blanks.length, rest⟩ := by
  rw [scanValue, scanValue, skipBlanks_append place hblanks hrest, skipBlanks_of_headNot _ hrest]

/-- A word is scanned once its first letter is known. -/
theorem scanConstant_append (place : Nat) (letter : Char) (word rest : List Char)
    (node : Nat → Nat → Node) :
    ∃ stop, scanConstant ⟨place, letter :: (word ++ rest)⟩ word node =
      (node place stop, some ⟨stop, rest⟩) := by
  refine ⟨place + 1 + word.length, ?_⟩
  rw [scanConstant, Cursor.pass, List.drop_succ_cons, List.drop_zero, scanWord_append]

theorem scanValue_number {literal : Literal} {text : List Char}
    (h : SpellsLiteral literal text) (hrest : Follows rest) :
    ∃ stop, scanValue (fuel + 1) ⟨place, text ++ rest⟩ =
      (.number literal place stop, some ⟨stop, rest⟩) := by
  obtain ⟨next, hscan⟩ := scanLiteral_of_spells place h hrest
  obtain ⟨c, s, rfl, hc⟩ := h.exists_head
  refine ⟨next, ?_⟩
  have hblank : HeadNot Cursor.isBlank (c :: (s ++ rest)) := headNot_cons (isBlank_of_number hc)
  have hother : ∀ d, d.isDigit = false → d ≠ '-' → c ≠ d := by
    rintro d hd hminus rfl
    simp_all
  rw [List.cons_append] at hscan ⊢
  rw [scanValue, skipBlanks_of_headNot place hblank]
  simp [hother, hc, hscan]

end Starts

section Containers

variable {first : Bool} {fuel : Nat} {lead rest : List Char}

/-- What follows an opening bracket, or an item. -/
def scanItemsAfter (first : Bool) (fuel : Nat) (cursor : Cursor) : Items × Option Cursor :=
  if first then scanItems fuel cursor else scanMoreItems fuel cursor

/-- What follows an opening brace, or a member. -/
def scanMembersAfter (first : Bool) (fuel : Nat) (cursor : Cursor) : Entries × Option Cursor :=
  if first then scanEntries fuel cursor else scanMoreEntries fuel cursor

/-- Whatever separates an item from what stands before it is passed over. -/
theorem scanItemsAfter_lead (place : Nat) (hlead : Lead first lead) {c : Char} {s : List Char}
    (hblank : Cursor.isBlank c = false) (hc : c ≠ ']') :
    ∃ start, scanItemsAfter first (fuel + 1) ⟨place, lead ++ c :: s⟩ =
      scanItem fuel ⟨start, c :: s⟩ := by
  have hhead : HeadNot Cursor.isBlank (c :: s) := headNot_cons hblank
  cases hlead with
  | first hblanks =>
      refine ⟨place + lead.length, ?_⟩
      rw [scanItemsAfter, if_pos rfl, scanItems, skipBlanks_append place hblanks hhead]
      simp [hc]
  | @later before after hbefore hafter =>
      have hcomma : HeadNot Cursor.isBlank (',' :: (after ++ c :: s)) := headNot_cons (by decide)
      refine ⟨place + before.length + 1 + after.length, ?_⟩
      rw [scanItemsAfter, if_neg (by decide), scanMoreItems, List.append_assoc, List.cons_append,
        skipBlanks_append place hbefore hcomma]
      simp [Cursor.pass, skipBlanks_append _ hafter hhead, hc]

theorem scanMembersAfter_lead (place : Nat) (hlead : Lead first lead) (s : List Char) :
    ∃ start, scanMembersAfter first (fuel + 1) ⟨place, lead ++ '"' :: s⟩ =
      scanEntry fuel ⟨start, '"' :: s⟩ := by
  have hhead : HeadNot Cursor.isBlank ('"' :: s) := headNot_cons (by decide)
  cases hlead with
  | first hblanks =>
      refine ⟨place + lead.length, ?_⟩
      rw [scanMembersAfter, if_pos rfl, scanEntries, skipBlanks_append place hblanks hhead]
      rfl
  | @later before after hbefore hafter =>
      have hcomma : HeadNot Cursor.isBlank (',' :: (after ++ '"' :: s)) :=
        headNot_cons (by decide)
      refine ⟨place + before.length + 1 + after.length, ?_⟩
      rw [scanMembersAfter, if_neg (by decide), scanMoreEntries, List.append_assoc,
        List.cons_append, skipBlanks_append place hbefore hcomma]
      simp [Cursor.pass, skipBlanks_append _ hafter hhead]

theorem scanItemsAfter_close (place : Nat) {blanks : List Char} (hblanks : Blank blanks) :
    ∃ stop, scanItemsAfter first (fuel + 1) ⟨place, blanks ++ ']' :: rest⟩ =
      (.close stop, some ⟨stop, rest⟩) := by
  have hhead : HeadNot Cursor.isBlank (']' :: rest) := headNot_cons (by decide)
  refine ⟨place + blanks.length + 1, ?_⟩
  cases first <;>
    simp [scanItemsAfter, scanItems, scanMoreItems, skipBlanks_append place hblanks hhead,
      Cursor.pass]

theorem scanMembersAfter_close (place : Nat) {blanks : List Char} (hblanks : Blank blanks) :
    ∃ stop, scanMembersAfter first (fuel + 1) ⟨place, blanks ++ '}' :: rest⟩ =
      (.close stop, some ⟨stop, rest⟩) := by
  have hhead : HeadNot Cursor.isBlank ('}' :: rest) := headNot_cons (by decide)
  refine ⟨place + blanks.length + 1, ?_⟩
  cases first <;>
    simp [scanMembersAfter, scanEntries, scanMoreEntries, skipBlanks_append place hblanks hhead,
      Cursor.pass]

theorem follows_of_blank {blanks : List Char} (hblanks : Blank blanks) {c : Char}
    {s : List Char} (hc : c = ',' ∨ c = ']' ∨ c = '}') : Follows (blanks ++ c :: s) := by
  intro d t hd
  cases blanks with
  | nil =>
      obtain ⟨rfl, -⟩ := List.cons.inj hd
      exact .inr hc
  | cons b blanks =>
      obtain ⟨rfl, -⟩ := List.cons.inj hd
      exact .inl (hblanks _ (by simp))

theorem Lead.follows {s : List Char} (h : Lead false lead) : Follows (lead ++ s) := by
  cases h with
  | later hbefore =>
      rw [List.append_assoc, List.cons_append]
      exact follows_of_blank hbefore (.inl rfl)

theorem SpellsItems.follows {items : List Spelling} {text : List Char}
    (h : SpellsItems false items text) (hrest : Follows rest) : Follows (text ++ rest) := by
  cases h with
  | none => exact hrest
  | item hlead =>
      rw [List.append_assoc]
      exact hlead.follows

theorem SpellsMembers.follows {members : List (List Piece × Spelling)} {text : List Char}
    (h : SpellsMembers false members text) (hrest : Follows rest) : Follows (text ++ rest) := by
  cases h with
  | none => exact hrest
  | member hlead =>
      rw [List.append_assoc]
      exact hlead.follows

end Containers

section Values

/-- An opening bracket is passed over. -/
theorem scanValue_bracket {fuel place : Nat} {s : List Char} {found : Items}
    {next : Option Cursor} (h : scanItemsAfter true fuel ⟨place + 1, s⟩ = (found, next)) :
    scanValue (fuel + 1) ⟨place, '[' :: s⟩ = (.array place found, next) := by
  rw [scanItemsAfter, if_pos rfl] at h
  rw [scanValue, skipBlanks_of_headNot place (headNot_cons (by decide))]
  simp only [Cursor.pass, List.drop_succ_cons, List.drop_zero, h]

/-- An opening brace is passed over. -/
theorem scanValue_brace {fuel place : Nat} {s : List Char} {found : Entries}
    {next : Option Cursor} (h : scanMembersAfter true fuel ⟨place + 1, s⟩ = (found, next)) :
    scanValue (fuel + 1) ⟨place, '{' :: s⟩ = (.object place found, next) := by
  rw [scanMembersAfter, if_pos rfl] at h
  rw [scanValue, skipBlanks_of_headNot place (headNot_cons (by decide))]
  simp only [Cursor.pass, List.drop_succ_cons, List.drop_zero, h]

/-- An item that is scanned, and then those after it. -/
theorem scanItem_of_scanValue {fuel : Nat} {cursor next : Cursor} {node : Node}
    (h : scanValue fuel cursor = (node, some next)) :
    scanItem (fuel + 1) cursor =
      (.item node next.leaveList (scanItemsAfter false fuel next).1,
        (scanItemsAfter false fuel next).2) := by
  rw [scanItem, h]
  rfl

/-- A member whose key and value are scanned, and then those after it. -/
theorem scanEntry_of_scanValue {fuel place : Nat} {cursor next : Cursor} {key : Quotation}
    {node : Node} {before s : List Char}
    (hkey : scanQuotation cursor = (key, some ⟨place, before ++ ':' :: s⟩))
    (hbefore : Blank before)
    (hvalue : scanValue fuel ⟨place + before.length + 1, s⟩ = (node, some next)) :
    ∃ afterKey, scanEntry (fuel + 1) cursor =
      (.entry key afterKey node next.leaveObject (scanMembersAfter false fuel next).1,
        (scanMembersAfter false fuel next).2) := by
  have hcolon : HeadNot Cursor.isBlank (':' :: s) := headNot_cons (by decide)
  refine ⟨(⟨place, before ++ ':' :: s⟩ : Cursor).leaveObject, ?_⟩
  rw [scanEntry, hkey]
  simp only [skipBlanks_append place hbefore hcolon, Cursor.pass, List.drop_succ_cons,
    List.drop_zero, hvalue]
  rfl

mutual

/-- A text is scanned to a tree that shows what it spells. -/
theorem scanValue_of_spells {spelling : Spelling} {text : List Char} (h : Spells spelling text)
    (fuel : Nat) (hfuel : 3 * text.length ≤ fuel) (place : Nat) {blanks rest : List Char}
    (hblanks : Blank blanks) (hrest : Follows rest) :
    ∃ node next, scanValue fuel ⟨place, blanks ++ (text ++ rest)⟩ = (node, some ⟨next, rest⟩) ∧
      node.Shows spelling := by
  have hhead : HeadNot Cursor.isBlank (text ++ rest) := by
    obtain ⟨c, s, rfl, hc, -⟩ := h.exists_head
    exact headNot_cons hc
  obtain ⟨fuel, rfl⟩ : ∃ n, fuel = n + 1 := by
    obtain ⟨c, s, rfl, -⟩ := h.exists_head
    rw [List.length_cons] at hfuel
    exact ⟨fuel - 1, by omega⟩
  rw [scanValue_blanks hblanks hhead]
  generalize place + blanks.length = start
  have hskip := skipBlanks_of_headNot start hhead
  cases h with
  | nullWord =>
      obtain ⟨stop, hword⟩ := scanConstant_append start 'n' ['u', 'l', 'l'] rest .null
      refine ⟨.null start stop, stop, ?_, .null⟩
      rw [scanValue, hskip]
      exact hword
  | trueWord =>
      obtain ⟨stop, hword⟩ := scanConstant_append start 't' ['r', 'u', 'e'] rest (.bool true)
      refine ⟨.bool true start stop, stop, ?_, .bool⟩
      rw [scanValue, hskip]
      exact hword
  | falseWord =>
      obtain ⟨stop, hword⟩ := scanConstant_append start 'f' ['a', 'l', 's', 'e'] rest (.bool false)
      refine ⟨.bool false start stop, stop, ?_, .bool⟩
      rw [scanValue, hskip]
      exact hword
  | @number literal text hliteral =>
      obtain ⟨stop, hscan⟩ := scanValue_number hliteral hrest
      exact ⟨.number literal start stop, stop, hscan, .number⟩
  | @text pieces text hpieces =>
      obtain ⟨stop, hscan⟩ := scanQuotation_of_spells hpieces start rest
      refine ⟨.text ⟨start, pieces, .ok stop⟩, stop, ?_, .text⟩
      have htext : '"' :: (text ++ ['"']) ++ rest = '"' :: (text ++ '"' :: rest) := by simp
      rw [htext] at hskip ⊢
      rw [scanValue, hskip]
      simp only [hscan]
  | @array items text ends hitems hends =>
      have hlength : 3 * (text.length + 1) ≤ fuel := by
        simp only [List.length_cons, List.length_append, List.length_nil] at hfuel
        omega
      obtain ⟨next, left, hscan⟩ := scanItems_of_spells hitems fuel hlength (start + 1)
        (follows_of_blank hends (s := rest) (.inr (.inl rfl)))
      obtain ⟨stop, hclose⟩ := scanItemsAfter_close next hends
      obtain ⟨found, hfound, hshown⟩ := hscan _ _ hclose
      refine ⟨.array start found, stop, ?_, .array hshown⟩
      simpa using scanValue_bracket hfound
  | @object members text ends hmembers hends =>
      have hlength : 3 * (text.length + 1) ≤ fuel := by
        simp only [List.length_cons, List.length_append, List.length_nil] at hfuel
        omega
      obtain ⟨next, left, hscan⟩ := scanMembers_of_spells hmembers fuel hlength (start + 1)
        (follows_of_blank hends (s := rest) (.inr (.inr rfl)))
      obtain ⟨stop, hclose⟩ := scanMembersAfter_close next hends
      obtain ⟨found, hfound, hshown⟩ := hscan _ _ hclose
      refine ⟨.object start found, stop, ?_, .object hshown⟩
      simpa using scanValue_brace hfound

/-- Items are scanned up to what follows the last of them, and then what follows. -/
theorem scanItems_of_spells {first : Bool} {items : List Spelling} {text : List Char}
    (h : SpellsItems first items text) (fuel : Nat) (hfuel : 3 * (text.length + 1) ≤ fuel)
    (place : Nat) {rest : List Char} (hrest : Follows rest) :
    ∃ next left, ∀ last cursor,
      scanItemsAfter (first && items.isEmpty) (left + 1) ⟨next, rest⟩ = (last, cursor) →
      ∃ found, scanItemsAfter first fuel ⟨place, text ++ rest⟩ = (found, cursor) ∧
        found.Shows items last := by
  cases h with
  | none =>
      obtain ⟨fuel, rfl⟩ : ∃ n, fuel = n + 1 := ⟨fuel - 1, by simp at hfuel; omega⟩
      refine ⟨place, fuel, fun last cursor hlast => ⟨last, ?_, .done⟩⟩
      simpa using hlast
  | @item _ item items lead text more hlead hitem hmore =>
      obtain ⟨c, s, hhead, hblank, hc⟩ := hitem.exists_head
      have htextPos : 0 < text.length := by simp [hhead]
      simp only [List.length_append] at hfuel
      obtain ⟨fuel, rfl⟩ : ∃ n, fuel = n + 2 := ⟨fuel - 2, by omega⟩
      obtain ⟨start, hstart⟩ := scanItemsAfter_lead place hlead hblank hc
      obtain ⟨node, next, hscan, hnode⟩ :=
        scanValue_of_spells hitem fuel (by omega) start blank_nil (hmore.follows hrest)
      rw [List.nil_append] at hscan
      obtain ⟨next', left, hrestScan⟩ := scanItems_of_spells hmore fuel (by omega) next hrest
      refine ⟨next', left, fun last cursor hlast => ?_⟩
      obtain ⟨found, hfound, hshown⟩ := hrestScan last cursor (by simpa using hlast)
      refine ⟨.item node (⟨next, more ++ rest⟩ : Cursor).leaveList found, ?_,
        .item hnode hshown⟩
      rw [List.append_assoc, List.append_assoc, hhead, List.cons_append, hstart,
        ← List.cons_append, ← hhead, scanItem_of_scanValue hscan, hfound]

/-- Members are scanned up to what follows the last of them, and then what follows. -/
theorem scanMembers_of_spells {first : Bool} {members : List (List Piece × Spelling)}
    {text : List Char} (h : SpellsMembers first members text) (fuel : Nat)
    (hfuel : 3 * (text.length + 1) ≤ fuel) (place : Nat) {rest : List Char}
    (hrest : Follows rest) :
    ∃ next left, ∀ last cursor,
      scanMembersAfter (first && members.isEmpty) (left + 1) ⟨next, rest⟩ = (last, cursor) →
      ∃ found, scanMembersAfter first fuel ⟨place, text ++ rest⟩ = (found, cursor) ∧
        found.Shows members last := by
  cases h with
  | none =>
      obtain ⟨fuel, rfl⟩ : ∃ n, fuel = n + 1 := ⟨fuel - 1, by simp at hfuel; omega⟩
      refine ⟨place, fuel, fun last cursor hlast => ⟨last, ?_, .done⟩⟩
      simpa using hlast
  | @member _ key value members lead name before after text more hlead hkey hbefore hafter
      hvalue hmore =>
      simp only [List.length_append, List.length_cons] at hfuel
      obtain ⟨fuel, rfl⟩ : ∃ n, fuel = n + 2 := ⟨fuel - 2, by omega⟩
      obtain ⟨start, hstart⟩ := scanMembersAfter_lead place hlead
        (name ++ '"' :: (before ++ ':' :: (after ++ (text ++ (more ++ rest)))))
      obtain ⟨colon, hquotation⟩ := scanQuotation_of_spells hkey start
        (before ++ ':' :: (after ++ (text ++ (more ++ rest))))
      obtain ⟨node, next, hscan, hnode⟩ := scanValue_of_spells hvalue fuel (by omega)
        (colon + before.length + 1) hafter (hmore.follows hrest)
      obtain ⟨next', left, hrestScan⟩ := scanMembers_of_spells hmore fuel (by omega) next hrest
      obtain ⟨afterKey, hentry⟩ := scanEntry_of_scanValue hquotation hbefore hscan
      refine ⟨next', left, fun last cursor hlast => ?_⟩
      obtain ⟨found, hfound, hshown⟩ := hrestScan last cursor (by simpa using hlast)
      refine ⟨.entry ⟨start, key, .ok colon⟩ afterKey node
        (⟨next, more ++ rest⟩ : Cursor).leaveObject found, ?_, .entry hnode hshown⟩
      have htext : (lead ++ ('"' :: (name ++ '"' :: (before ++ ':' :: (after ++ (text ++
          more)))))) ++ rest =
            lead ++ '"' :: (name ++ '"' :: (before ++ ':' ::
              (after ++ (text ++ (more ++ rest))))) := by
        simp
      rw [htext, hstart, hentry, hfound]

end

end Values

section Documents

variable {spelling : Spelling} {value : Json} {before text after : List Char}

/-- A document is scanned to a tree of what it spells, and nothing is left over. -/
theorem scan_of_spells (hbefore : Blank before) (h : Spells spelling text)
    (hafter : Blank after) :
    ∃ root, scan (String.ofList (before ++ (text ++ after))) = ⟨root, none⟩ ∧
      root.Shows spelling := by
  have hlength : 3 * text.length ≤ 3 * (before ++ (text ++ after)).length + 3 := by
    simp only [List.length_append]
    omega
  have hfollows : Follows after := by
    rintro c s rfl
    exact .inl (hafter c (by simp))
  obtain ⟨root, next, hscan, hroot⟩ :=
    scanValue_of_spells h _ hlength 0 hbefore hfollows
  have hskip := skipBlanks_append next hafter (headNot_nil (p := Cursor.isBlank))
  refine ⟨root, ?_, hroot⟩
  rw [List.append_nil] at hskip
  rw [scan, String.toList_ofList]
  simp only [hscan, hskip]
  rfl

/-- A document of a value is scanned to a tree that holds it. -/
theorem scan_of_writes (hbefore : Blank before) (h : Writes value text) (hafter : Blank after) :
    ∃ root, scan (String.ofList (before ++ (text ++ after))) = ⟨root, none⟩ ∧
      root.Holds value := by
  obtain ⟨spelling, hspells, hholds⟩ := h.exists_spelling
  obtain ⟨root, hscan, hroot⟩ := scan_of_spells hbefore hspells hafter
  exact ⟨root, hscan, hholds root hroot⟩

/-- A document is read as its tree is. -/
theorem parse_of_writes {α : Type} {read : Reader α} {result : α} (hbefore : Blank before)
    (h : Writes value text) (hafter : Blank after)
    (hread : ∀ node : Node, node.Holds value → read maxDepth node = .ok result) :
    parse read (String.ofList (before ++ (text ++ after))) = .ok result := by
  obtain ⟨root, hscan, hroot⟩ := scan_of_writes hbefore h hafter
  simp only [parse, hscan, hread root hroot]
  rfl

theorem parse_compact {α : Type} {read : Reader α} {result : α}
    (h : Writes value value.render)
    (hread : ∀ node : Node, node.Holds value → read maxDepth node = .ok result) :
    parse read value.compact = .ok result := by
  have hparse := parse_of_writes blank_nil h blank_nil hread
  rw [List.nil_append, List.append_nil] at hparse
  exact hparse

end Documents

end CodeSmells.Json
