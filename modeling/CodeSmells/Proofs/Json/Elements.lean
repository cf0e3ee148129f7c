import CodeSmells.Proofs.Json.Steadiness
import Mathlib.Data.List.TakeWhile

/-!
# Arrays put together from texts

Texts of values with commas between them and brackets around them are the text of
an array.  Each of them is scanned up to its end, whatever follows it, so the array
is read element by element.  Anything but blanks after the closing bracket and a
comma before it are refused.

**Results.**

* `Listing.toOption_parse`: an array is read as its elements are on their own.
* `Listing.toOption_parse_of_not_blank`: nothing may follow the array.
* `Listing.toOption_parse_of_comma`: no comma may stand before the closing bracket.
-/

namespace CodeSmells.Json

open Fallible

variable {α : Type}

section Listings

/-- A text with blanks around it. -/
def Padded (text : String) (padded : List Char) : Prop :=
  ∃ before after, Blank before ∧ Blank after ∧ padded = before ++ (text.toList ++ after)

/--
The text of an array: blanks, a bracket, texts with blanks around them and commas between
them, something more, a bracket, and what is left.
-/
def Listing (texts : List String) (more rest : List Char) (text : String) : Prop :=
  ∃ before lead padded, Blank before ∧ Blank lead ∧ List.Forall₂ Padded texts padded ∧
    text.toList = before ++ '[' :: (lead ++ ([','].intercalate padded ++ (more ++ ']' :: rest)))

/-- Texts with nothing but commas between them, in brackets. -/
theorem listing_joined (texts : List String) (more rest : String) :
    Listing texts more.toList rest.toList
      ("[" ++ ",".intercalate texts ++ more ++ "]" ++ rest) := by
  have hpadded : List.Forall₂ Padded texts (texts.map String.toList) := by
    rw [List.forall₂_map_right_iff, List.forall₂_same]
    exact fun text _ => ⟨[], [], blank_nil, blank_nil, by simp⟩
  refine ⟨[], [], _, blank_nil, blank_nil, hpadded, ?_⟩
  simp [String.toList_intercalate]

variable {items : List Spelling} {texts : List String}

/-- Each of the texts has a spelling. -/
theorem exists_spellings {p : Spelling → Prop}
    (h : ∀ text ∈ texts, ∃ item : Spelling, item.HasText text ∧ p item) :
    ∃ items, List.Forall₂ Spelling.HasText items texts ∧ ∀ item ∈ items, p item := by
  induction texts with
  | nil => exact ⟨[], .nil, List.forall_mem_nil _⟩
  | cons text texts ih =>
      rw [List.forall_mem_cons] at h
      obtain ⟨item, htext, hitem⟩ := h.1
      obtain ⟨items, htexts, hitems⟩ := ih h.2
      exact ⟨item :: items, .cons htext htexts, List.forall_mem_cons.2 ⟨hitem, hitems⟩⟩

theorem Blank.append {blanks more : List Char} (h : Blank blanks) (hmore : Blank more) :
    Blank (blanks ++ more) := by
  intro c hc
  rcases List.mem_append.1 hc with hc | hc
  · exact h c hc
  · exact hmore c hc

/-- Blanks around a text of a spelling belong to the text. -/
theorem Spelling.HasText.padded {item : Spelling} {text : String} {padded : List Char}
    (h : item.HasText text) (hpadded : Padded text padded) :
    ∃ before body after, Blank before ∧ Spells item body ∧ Blank after ∧
      padded = before ++ (body ++ after) := by
  obtain ⟨inner, body, inner', hinner, hbody, hinner', rfl⟩ := h
  obtain ⟨before, after, hbefore, hafter, rfl⟩ := hpadded
  refine ⟨before ++ inner, body, inner' ++ after, hbefore.append hinner, hbody,
    hinner'.append hafter, ?_⟩
  simp

theorem intercalate_comma_cons (first : List Char) (others : List (List Char)) :
    [','].intercalate (first :: others) = first ++ others.flatMap (',' :: ·) := by
  induction others generalizing first with
  | nil => simp
  | cons second others ih =>
      rw [List.intercalate_cons_cons, ih, List.flatMap_cons]
      simp

/-- Texts after the first one, each with a comma before it, are items with their leads. -/
theorem exists_spellsItems_later {padded : List (List Char)}
    (h : List.Forall₂ Spelling.HasText items texts) (hpadded : List.Forall₂ Padded texts padded)
    {blanks : List Char} (hblanks : Blank blanks) :
    ∃ body after, SpellsItems false items body ∧ Blank after ∧
      blanks ++ padded.flatMap (',' :: ·) = body ++ after := by
  induction h generalizing padded blanks with
  | nil =>
      cases hpadded
      exact ⟨[], blanks, .none, hblanks, by simp⟩
  | cons htext _ ih =>
      cases hpadded with
      | cons hfirst hrest =>
          obtain ⟨before, body, after, hbefore, hbody, hafter, rfl⟩ := htext.padded hfirst
          obtain ⟨more, last, hmore, hlast, heq⟩ := ih hrest hafter
          refine ⟨blanks ++ ',' :: before ++ (body ++ more), last,
            .item (.later hblanks hbefore) hbody hmore, hlast, ?_⟩
          simp [heq]

/-- Texts with commas between them are items with their leads. -/
theorem exists_spellsItems {padded : List (List Char)}
    (h : List.Forall₂ Spelling.HasText items texts) (hpadded : List.Forall₂ Padded texts padded)
    {lead : List Char} (hlead : Blank lead) :
    ∃ body after, SpellsItems true items body ∧ Blank after ∧
      lead ++ [','].intercalate padded = body ++ after := by
  cases h with
  | nil =>
      cases hpadded
      exact ⟨[], lead, .none, hlead, by simp [List.intercalate]⟩
  | cons htext hrest =>
      cases hpadded with
      | @cons _ first _ others hfirst hothers =>
          obtain ⟨before, body, after, hbefore, hbody, hafter, rfl⟩ := htext.padded hfirst
          obtain ⟨more, last, hmore, hlast, heq⟩ := exists_spellsItems_later hrest hothers hafter
          refine ⟨lead ++ before ++ (body ++ more), last,
            .item (.first (hlead.append hbefore)) hbody hmore, hlast, ?_⟩
          rw [intercalate_comma_cons]
          simp [heq]

/-- What a listing spells up to what follows the last text. -/
theorem Listing.exists_spellsItems {more rest : List Char} {text : String}
    (h : List.Forall₂ Spelling.HasText items texts) (htext : Listing texts more rest text) :
    ∃ before body after, Blank before ∧ SpellsItems true items body ∧ Blank after ∧
      text.toList = before ++ '[' :: (body ++ (after ++ (more ++ ']' :: rest))) := by
  obtain ⟨before, lead, padded, hbefore, hlead, hpadded, htext⟩ := htext
  obtain ⟨body, after, hbody, hafter, heq⟩ := Json.exists_spellsItems h hpadded hlead
  refine ⟨before, body, after, hbefore, hbody, hafter, ?_⟩
  rw [htext, ← List.append_assoc lead, heq]
  simp

theorem Listing.append {more rest : List Char} {text : String}
    (htext : Listing texts more rest text) (appended : String) :
    Listing texts more (rest ++ appended.toList) (text ++ appended) := by
  obtain ⟨before, lead, padded, hbefore, hlead, hpadded, htext⟩ := htext
  exact ⟨before, lead, padded, hbefore, hlead, hpadded, by simp [htext]⟩

/-- A listing is a text of an array if nothing but blanks is left. -/
theorem Listing.hasText {rest : List Char} {text : String}
    (h : List.Forall₂ Spelling.HasText items texts) (htext : Listing texts [] rest text)
    (hrest : Blank rest) : (Spelling.array items).HasText text := by
  obtain ⟨before, body, after, hbefore, hbody, hafter, heq⟩ := htext.exists_spellsItems h
  refine ⟨before, _, rest, hbefore, .array hbody hafter, hrest, ?_⟩
  rw [← String.ofList_toList (s := text), heq]
  simp

end Listings

section Scans

variable {items : List Spelling} {text : String} {before body tail : List Char}

/-- An array is scanned up to what follows the last of its items. -/
theorem scan_of_spellsItems (hbefore : Blank before) (hbody : SpellsItems true items body)
    (htail : Follows tail) (htext : text.toList = before ++ '[' :: (body ++ tail)) :
    ∃ place left, ∀ last next,
      scanItemsAfter items.isEmpty (left + 1) ⟨place, tail⟩ = (last, next) →
      ∃ start found, found.Shows items last ∧ (scan text).root = .array start found ∧
        (scan text).trailing = next.bind fun next =>
          if next.skipBlanks.rest.isEmpty then none
          else some (.plain .trailingCharacters next.skipBlanks.peek) := by
  have hlength : 3 * (body.length + 1) ≤ 3 * text.toList.length + 2 := by
    rw [htext]
    simp only [List.length_append, List.length_cons]
    omega
  obtain ⟨place, left, hscan⟩ :=
    scanItems_of_spells hbody _ hlength (0 + before.length + 1) htail
  refine ⟨place, left, fun last next hlast => ?_⟩
  obtain ⟨found, hfound, hshown⟩ := hscan last next (by simpa using hlast)
  have hroot : scanValue (3 * text.toList.length + 3) ⟨0, text.toList⟩ =
      (.array (0 + before.length) found, next) := by
    generalize 3 * text.toList.length = fuel at hfound ⊢
    rw [htext, scanValue_blanks hbefore (headNot_cons (by decide))]
    exact scanValue_bracket hfound
  refine ⟨0 + before.length, found, hshown, ?_⟩
  rw [scan]
  simp only [hroot]
  cases next <;> exact ⟨rfl, rfl⟩

/-- No value stands here. -/
inductive Node.IsFault : Node → Prop
  | missing {place : Nat} : Node.IsFault (.missing place)
  | broken {start : Nat} {fault : Fault} : Node.IsFault (.broken start fault)

/-- Neither an item nor the end stands here. -/
inductive Items.IsFault : Items → Prop
  | broken {fault : Fault} : Items.IsFault (.broken fault)
  | item {node : Node} {after : Nat} {more : Items} :
      node.IsFault → Items.IsFault (.item node after more)

/-- A comma is no value. -/
theorem scanValue_comma (fuel place : Nat) (rest : List Char) :
    ∃ node, scanValue fuel ⟨place, ',' :: rest⟩ = (node, none) ∧ node.IsFault := by
  cases fuel with
  | zero => exact ⟨.missing place, rfl, .missing⟩
  | succ fuel =>
      have hscan : scanValue (fuel + 1) ⟨place, ',' :: rest⟩ =
          (.broken place (.plain .noValue (place + 1)), none) := by
        rw [scanValue, skipBlanks_of_headNot place (headNot_cons (by decide))]
        simp [Cursor.peek]
      exact ⟨_, hscan, .broken⟩

/-- After a comma an item is due, which a closing bracket is not; neither is a comma. -/
theorem scanItemsAfter_comma (first : Bool) (left place : Nat) {blanks after rest : List Char}
    (hblanks : Blank blanks) (hafter : Blank after) :
    ∃ last, scanItemsAfter first (left + 1) ⟨place, blanks ++ ',' :: (after ++ ']' :: rest)⟩ =
      (last, none) ∧ last.IsFault := by
  have hcomma : HeadNot Cursor.isBlank (',' :: (after ++ ']' :: rest)) := headNot_cons (by decide)
  have hclose : HeadNot Cursor.isBlank (']' :: rest) := headNot_cons (by decide)
  cases first with
  | false =>
      refine ⟨.broken (.worded .trailingComma .noValue
        (place + blanks.length + 1 + after.length + 1)), ?_, .broken⟩
      rw [scanItemsAfter, if_neg (by decide), scanMoreItems, skipBlanks_append place hblanks hcomma]
      simp [Cursor.pass, skipBlanks_append _ hafter hclose, Cursor.peek]
  | true =>
      rw [scanItemsAfter, if_pos rfl, scanItems, skipBlanks_append place hblanks hcomma]
      cases left with
      | zero => exact ⟨_, rfl, .broken⟩
      | succ left =>
          obtain ⟨node, hscan, hfault⟩ :=
            scanValue_comma left (place + blanks.length) (after ++ ']' :: rest)
          have hitem : ∃ more, scanItem (left + 1)
              ⟨place + blanks.length, ',' :: (after ++ ']' :: rest)⟩ =
              (.item node (place + blanks.length) more, none) := by
            exact ⟨_, by rw [scanItem, hscan]⟩
          obtain ⟨more, hitem⟩ := hitem
          exact ⟨_, hitem, .item hfault⟩

end Scans

section Readings

variable {items : List Spelling} {texts : List String} {more rest : List Char} {text : String}
  {read : Reader α}

/-- Elements are read inside an array as they are on their own. -/
theorem mapM_result (h : List.Forall₂ Spelling.HasText items texts) (hread : Steady read)
    (hnesting : ∀ item ∈ items, item.nesting < maxDepth) :
    items.mapM (Spelling.result read (maxDepth - 1)) =
      texts.mapM fun text => (parse read text).toOption := by
  induction h with
  | nil => rfl
  | @cons item text items texts htext _ ih =>
      rw [List.forall_mem_cons] at hnesting
      have hfits : item.Fits maxDepth (maxDepth - 1) :=
        .inr ⟨Nat.le_of_lt hnesting.1, Nat.le_sub_one_of_lt hnesting.1⟩
      have hitem : (parse read text).toOption = item.result read (maxDepth - 1) :=
        (htext.toOption_parse hread).trans (hread.toOption_eq item.shows_node hfits)
      rw [List.mapM_cons, List.mapM_cons, hitem, ih hnesting.2]

/-- An array is read element by element, all or nothing. -/
theorem Listing.toOption_parse (htext : Listing texts [] rest text)
    (h : List.Forall₂ Spelling.HasText items texts) (hrest : Blank rest) (hread : Steady read)
    (hnesting : ∀ item ∈ items, item.nesting < maxDepth) :
    (parse (readList read) text).toOption = (texts.mapM (parse read)).toOption :=
  calc
    _ = (Spelling.array items).result (readList read) maxDepth :=
      (htext.hasText h hrest).toOption_parse hread.list
    _ = items.mapM (Spelling.result read (maxDepth - 1)) := hread.result_list
    _ = texts.mapM fun text => (parse read text).toOption := mapM_result h hread hnesting
    _ = (texts.mapM (parse read)).toOption := (toOption_mapM _ _).symm

theorem blank_of_skipBlanks {cursor : Cursor} (h : cursor.skipBlanks.rest = []) :
    Blank cursor.rest := by
  have hlength := List.drop_eq_nil_iff.1 h
  have hall := (List.takeWhile_prefix Cursor.isBlank).eq_of_length_le hlength
  exact List.takeWhile_eq_self_iff.1 hall

theorem toOption_parse_of_trailing {fault : Fault} (read : Reader α)
    (h : (scan text).trailing = some fault) : (parse read text).toOption = none := by
  rw [parse, toOption_bind]
  simp only [h]
  cases (read maxDepth (scan text).root).toOption <;> rfl

/-- What follows an array and is not blank is refused. -/
theorem Listing.toOption_parse_of_not_blank (htext : Listing texts [] rest text)
    (h : List.Forall₂ Spelling.HasText items texts) (hrest : ¬ Blank rest) (read : Reader α) :
    (parse read text).toOption = none := by
  obtain ⟨before, body, after, hbefore, hbody, hafter, heq⟩ := htext.exists_spellsItems h
  obtain ⟨place, left, hscan⟩ :=
    scan_of_spellsItems hbefore hbody (follows_of_blank hafter (.inr (.inl rfl))) heq
  obtain ⟨stop, hclose⟩ := scanItemsAfter_close place hafter
  obtain ⟨start, found, -, -, htrailing⟩ := hscan _ _ hclose
  have hleft : ¬ (⟨stop, rest⟩ : Cursor).skipBlanks.rest.isEmpty = true := fun hempty =>
    hrest (blank_of_skipBlanks (List.isEmpty_iff.1 hempty))
  rw [Option.bind_some, if_neg hleft] at htrailing
  exact toOption_parse_of_trailing read htrailing

/-- Items that end in a fault are not read. -/
theorem toOption_readAll_of_isFault {found last : Items} {read : Node → Reading α}
    (h : found.Shows items last) (hlast : last.IsFault)
    (hread : ∀ node : Node, node.IsFault → (read node).toOption = none) :
    (found.readAll read).toOption = none := by
  induction items generalizing found with
  | nil =>
      cases h
      cases hlast with
      | broken => rfl
      | item hnode =>
          rw [Items.readAll, toOption_bind, toOption_settle, hread _ hnode]
          rfl
  | cons item items ih =>
      cases h with
      | item _ hmore =>
          rw [Items.readAll, toOption_bind, Option.bind_eq_none_iff]
          intro x _
          rw [toOption_bind, ih hmore]
          rfl

/-- A comma before the closing bracket is refused. -/
theorem Listing.toOption_parse_of_comma {blanks : List Char}
    (htext : Listing texts (',' :: blanks) rest text)
    (h : List.Forall₂ Spelling.HasText items texts) (hblanks : Blank blanks)
    (hread : ∀ room, ∀ node : Node, node.IsFault → (read room node).toOption = none) :
    (parse (readList read) text).toOption = none := by
  obtain ⟨before, body, after, hbefore, hbody, hafter, heq⟩ := htext.exists_spellsItems h
  obtain ⟨place, left, hscan⟩ :=
    scan_of_spellsItems hbefore hbody (follows_of_blank hafter (.inl rfl)) heq
  obtain ⟨last, hlast, hfault⟩ := scanItemsAfter_comma items.isEmpty left place hafter hblanks
  obtain ⟨start, found, hshown, hroot, -⟩ := hscan _ _ hlast
  have hlist : (readList read maxDepth (.array start found)).toOption = none :=
    toOption_readAll_of_isFault hshown hfault (hread (maxDepth - 1))
  rw [parse, toOption_bind]
  simp only [hroot, hlist]
  rfl

end Readings

end CodeSmells.Json
