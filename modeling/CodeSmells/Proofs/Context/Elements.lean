import CodeSmells.Proofs.Context.Records
import CodeSmells.Proofs.Json.Elements

/-!
# Dumps element by element

A dump is put together from texts of contexts.  It is read as these are read on their
own, and refused as a whole if one of them is refused.

**Results.**

* `toOption_read_of_isFault`: where no value stands there is no context.
* `dump_is_elementwise`: the contexts of a dump are those of its elements.
-/

namespace CodeSmells.Context

open Json Fallible

theorem toOption_read_of_isFault (room : Nat) (node : Node) (h : node.IsFault) :
    (read room node).toOption = none := by
  cases h <;> simp [read, toOption_refuse]

/--
Each text is one of a JSON value that is nested at most a hundred deep.  A dump is made of
them, with blanks around them, commas between them and brackets around all.  It is read
exactly when each of them is read as a context on its own, and then it has just these
contexts, in their order.  It is refused if anything but blanks is appended, or if a
comma stands after the last element.
-/
theorem dump_is_elementwise {texts : List String}
    (hvalid : ∀ text ∈ texts, ∃ item : Spelling, item.HasText text ∧ item.nesting ≤ 100) :
    (∀ (blanks : List Char) (text : String), Blank blanks → Listing texts [] blanks text →
      ((∃ contexts, parseDump text = .ok contexts) ↔
        ∀ element ∈ texts, ∃ context, parse read element = .ok context) ∧
      (∀ contexts, parseDump text = .ok contexts ↔
        List.Forall₂ (fun element context => parse read element = .ok context) texts contexts) ∧
      (∀ appended : String, ¬ Blank appended.toList →
        ∀ contexts, parseDump (text ++ appended) ≠ .ok contexts)) ∧
    (∀ (blanks rest : List Char) (text : String), Blank blanks →
      Listing texts (',' :: blanks) rest text → ∀ contexts, parseDump text ≠ .ok contexts) := by
  obtain ⟨items, htexts, hnesting⟩ := exists_spellings hvalid
  refine ⟨fun blanks text hblanks hlisting => ?_, fun blanks rest text hblanks hlisting => ?_⟩
  · have hshallow : ∀ item ∈ items, item.nesting < maxDepth := fun item hitem =>
      Nat.lt_of_le_of_lt (hnesting item hitem) (by decide)
    have hdump : ∀ contexts, parseDump text = .ok contexts ↔
        List.Forall₂ (fun element context => parse read element = .ok context) texts contexts := by
      intro contexts
      rw [← mapM_eq_ok_iff, ← toOption_eq_some_iff, ← toOption_eq_some_iff, parseDump,
        hlisting.toOption_parse htexts hblanks record.steady_read hshallow]
    refine ⟨?_, hdump, ?_⟩
    · simp only [hdump, exists_forall₂_iff]
    · intro appended hrest contexts hok
      have hrefused := (hlisting.append appended).toOption_parse_of_not_blank htexts
        (fun hblank => hrest fun c hc => hblank c (List.mem_append_right blanks hc)) (readList read)
      rw [← parseDump, hok] at hrefused
      cases hrefused
  · intro contexts hok
    have hrefused := hlisting.toOption_parse_of_comma htexts hblanks toOption_read_of_isFault
    rw [← parseDump, hok] at hrefused
    cases hrefused

/-- A module on its own, in a dump, and in dumps that are refused because of something else. -/
theorem dump_is_elementwise_of_module :
    let element := "[\"module\",\"\",\"\",1]"
    parseDump ("[" ++ element ++ "]") = .ok [bare .module "" 1] ∧
      (∀ contexts, parseDump ("[" ++ element ++ ",null]") ≠ .ok contexts) ∧
      (∀ contexts, parseDump ("[" ++ element ++ "]null") ≠ .ok contexts) ∧
      ∀ contexts, parseDump ("[" ++ element ++ ",]") ≠ .ok contexts := by
  intro element
  let number := Spelling.number ⟨false, [1], [], none⟩
  let item := Spelling.array [.text (plainPieces "module"), .text [], .text [], number]
  have hkind : (Spelling.text (plainPieces "module")).HasText "\"module\"" :=
    hasText_of_spells (.text (spellsPieces_plainPieces (by simp)))
  have hempty : (Spelling.text []).HasText "\"\"" := hasText_of_spells (.text .nil)
  have hnumber : number.HasText "1" := hasText_of_spells (spells_digit (c := '1') (by decide))
  have hitem : item.HasText element :=
    (listing_joined ["\"module\"", "\"\"", "\"\"", "1"] "" "").hasText
      (.cons hkind (.cons hempty (.cons hempty (.cons hnumber .nil)))) blank_nil
  have hnull : Spelling.null.HasText "null" := hasText_of_spells .nullWord
  have helement : ∃ item : Spelling, item.HasText element ∧ item.nesting ≤ 100 :=
    ⟨item, hitem, by decide⟩
  have hread : parse read element = .ok (bare .module "" 1) := by
    rw [← toOption_eq_some_iff, hitem.toOption_parse record.steady_read]
    rfl
  have hrefused : ∀ context, parse read "null" ≠ .ok context := by
    intro context hok
    have hnone := hnull.toOption_parse record.steady_read
    rw [hok] at hnone
    cases hnone
  obtain ⟨hdump, hcomma⟩ := dump_is_elementwise (List.forall_mem_singleton.2 helement)
  obtain ⟨-, hdumpTwo, -⟩ := (dump_is_elementwise (List.forall_mem_cons.2 ⟨helement,
    List.forall_mem_singleton.2 ⟨.null, hnull, by decide⟩⟩)).1 [] _ blank_nil
      (listing_joined [element, "null"] "" "")
  obtain ⟨-, hcontexts, happended⟩ := hdump [] _ blank_nil (listing_joined [element] "" "")
  refine ⟨(hcontexts _).2 (.cons hread .nil), fun contexts hok => ?_, ?_, ?_⟩
  · cases (hdumpTwo contexts).1 hok with
    | cons _ hrest =>
        cases hrest with
        | cons hnone => exact hrefused _ hnone
  · exact happended "null" fun hblank => absurd (hblank 'n' (by decide)) (by decide)
  · exact hcomma [] [] _ blank_nil (listing_joined [element] "," "")

end CodeSmells.Context
