import CodeSmells.Proofs.Context.Records
import CodeSmells.Proofs.Json.Notations
import Mathlib.Data.List.Permutation

/-!
# Notations of contexts

Contexts, their defaults, and entries on detectors are written as arrays of their
fields or as objects; a default expression is an array of a tag and its payload, or an
object.  In one context these notations may be mixed as one likes.

**Results.**

* `Expression.agrees`, `DetectorEntry.agrees`, `DefaultAssignment.agrees`, `Context.agrees`:
  each reader finds the same in arrays and in objects.
* `Context.notations_agree`: the notations can be exchanged, and arrays of other lengths
  are refused.
-/

namespace CodeSmells

open Json Fallible

variable {room : Nat} {items : List Spelling} {members : List (List Piece × Spelling)}

namespace Expression

/-- The name of what a tag carries besides itself, if it carries something. -/
def payloadName? (tag : String) : Option String :=
  if tag ∈ ["int", "float", "str", "sym"] then some "value"
  else if tag = "other" then some "node"
  else none

/-- An expression in array notation, and the same as an object. -/
inductive Unfolds : Spelling → Spelling → Prop
  | same (spelling : Spelling) : Unfolds spelling spelling
  | tag {tag : Spelling} {key : List Piece} :
      textOf? key = some "type" → Unfolds (.array [tag]) (.object [(key, tag)])
  | payload {tag : List Piece} {tagName name : String} {payload : Spelling}
      {key payloadKey : List Piece} {members : List (List Piece × Spelling)} :
      textOf? tag = some tagName → payloadName? tagName = some name →
      textOf? key = some "type" → textOf? payloadKey = some name →
      members.Perm [(key, .text tag), (payloadKey, payload)] →
      Unfolds (.array [.text tag, payload]) (.object members)

theorem form_of_payloadName? {tag name : String} (h : payloadName? tag = some name) :
    (∃ build, form tag = .withValue build ∧ name = "value") ∨
      form tag = .withNode ∧ name = "node" := by
  rw [payloadName?] at h
  split at h
  next hmem =>
    cases h
    simp only [List.mem_cons, List.not_mem_nil, or_false] at hmem
    rcases hmem with rfl | rfl | rfl | rfl <;> exact .inl ⟨_, rfl, rfl⟩
  next =>
    split at h
    next hother =>
      cases h
      exact .inr ⟨by rw [hother]; rfl, rfl⟩
    next => cases h

theorem form_of_payloadName?_eq_none {tag : String} (h : payloadName? tag = none) :
    ∃ expression, form tag = .plain expression := by
  rw [payloadName?] at h
  split at h
  next => cases h
  next hnot =>
    split at h
    next => cases h
    next hother =>
      simp only [List.mem_cons, List.not_mem_nil, or_false, not_or] at hnot
      by_cases htrue : tag = "true"
      · exact ⟨true, by rw [htrue]; rfl⟩
      by_cases hfalse : tag = "false"
      · exact ⟨false, by rw [hfalse]; rfl⟩
      by_cases hnil : tag = "nil"
      · exact ⟨nil, by rw [hnil]; rfl⟩
      · exact ⟨unknown, by simp [form, htrue, hfalse, hnil, hnot, hother]⟩

/-- A tag alone is the same in both notations. -/
theorem ofItems_nil (tag : String) : ofItems tag [] = ofMembers tag [] := by
  rw [ofItems, ofMembers]
  cases form tag <;> rfl

/-- A tag with its payload is the same in both notations. -/
theorem ofItems_singleton {tag name : String} (h : payloadName? tag = some name) (value : Json) :
    ofItems tag [value] = ofMembers tag [(name, value)] := by
  rw [ofItems, ofMembers]
  rcases form_of_payloadName? h with ⟨build, hform, rfl⟩ | ⟨hform, rfl⟩
  · simp [hform, soleValue, Except.map, ok_bind]
  · cases hvalue : payloadNode value <;>
      simp [hform, soleValue, hvalue, Except.map, bind, Except.bind]

/-- The member with the tag. -/
theorem takeMember_type {key : List Piece} (hkey : textOf? key = some "type") (value : Spelling)
    (others : List (String × Json)) :
    takeMember (field room) ⟨none, others⟩ (key, value) =
      (value.result (readText .variantName) room).map fun tag => ⟨some tag, others⟩ := by
  rw [takeMember, hkey]
  exact toOption_map _ _

/-- A member beside the tag. -/
theorem takeMember_of_ne {key : List Piece} {name : String} (hkey : textOf? key = some name)
    (hname : name ≠ "type") (value : Spelling) (draft : Draft) :
    takeMember (field room) draft (key, value) = (value.result readAny room).map fun value =>
      { draft with members := (name, value) :: draft.members } := by
  rw [takeMember, hkey, Option.bind_some]
  simp only [field, if_neg hname]
  exact toOption_map _ _

theorem result_array_cons {tag : Spelling} {rest : List Spelling} :
    (Spelling.array (tag :: rest)).result read room = (inner? room).bind fun room =>
      (tag.result (readText .variantName) room).bind fun tag =>
        (rest.mapM (Spelling.result readAny room)).bind fun values =>
          (ofItems tag values).toOption :=
  result_array

/-- An expression is read alike from an array and from an object. -/
theorem agrees : Agrees read Unfolds := by
  intro spelling other hunfolds room
  cases hunfolds with
  | same => rfl
  | @tag tag key hkey =>
      rw [result_array_cons, result_object]
      refine Option.bind_congr fun room _ => ?_
      rw [List.foldlM_cons, takeMember_type hkey]
      cases tag.result (readText .variantName) room with
      | none => rfl
      | some tag => exact congrArg Except.toOption (ofItems_nil tag)
  | @payload tag tagName name payload key payloadKey members htag hname hkey hpayloadKey hperm =>
      have hne : name ≠ "type" := by
        rcases form_of_payloadName? hname with ⟨-, -, rfl⟩ | ⟨-, rfl⟩ <;> decide
      rw [result_array_cons, result_object]
      refine Option.bind_congr fun room _ => ?_
      have htag : (Spelling.text tag).result (readText .variantName) room = some tagName :=
        (toOption_read_quotation 0 0 tag).trans htag
      have hdraft : members.foldlM (takeMember (field room)) ⟨none, []⟩ =
          (payload.result readAny room).map fun value => ⟨some tagName, [(name, value)]⟩ := by
        rcases List.perm_pair.1 hperm with rfl | rfl
        · rw [List.foldlM_cons, takeMember_type hkey, htag, Option.map_some, Option.bind_eq_bind,
            Option.bind_some, List.foldlM_cons, takeMember_of_ne hpayloadKey hne]
          cases payload.result readAny room <;> rfl
        · rw [List.foldlM_cons, takeMember_of_ne hpayloadKey hne]
          cases payload.result readAny room with
          | none => rfl
          | some value =>
              rw [Option.map_some, Option.bind_eq_bind, Option.bind_some, List.foldlM_cons,
                takeMember_type hkey, htag]
              rfl
      rw [hdraft, htag, List.mapM_cons, List.mapM_nil]
      cases payload.result readAny room with
      | none => rfl
      | some value => exact congrArg Except.toOption (ofItems_singleton hname value)

theorem length_of_mapM {α β : Type} {f : α → Option β} {xs : List α} {ys : List β}
    (h : xs.mapM f = some ys) : ys.length = xs.length := by
  induction xs generalizing ys with
  | nil =>
      cases h
      rfl
  | cons x xs ih =>
      rw [List.mapM_cons] at h
      obtain ⟨y, -, h⟩ := Option.bind_eq_some_iff.1 h
      obtain ⟨rest, hrest, h⟩ := Option.bind_eq_some_iff.1 h
      cases h
      rw [List.length_cons, List.length_cons, ih hrest]

/-- How many items a tag takes after itself. -/
def most (tag : String) : Nat :=
  if (payloadName? tag).isSome then 1 else 0

/-- More items than a tag takes are refused. -/
theorem toOption_ofItems_of_most_lt {tag : String} {values : List Json}
    (h : most tag < values.length) : (ofItems tag values).toOption = none := by
  rw [ofItems.eq_def]
  cases hname : payloadName? tag with
  | none =>
      obtain ⟨expression, hform⟩ := form_of_payloadName?_eq_none hname
      cases values with
      | nil => cases h
      | cons value rest =>
          rw [hform]
          rfl
  | some name =>
      have hmost : most tag = 1 := by simp [most, hname]
      rw [hmost] at h
      rcases values with _ | ⟨first, _ | ⟨second, rest⟩⟩
      · cases h
      · exact absurd h (Nat.lt_irrefl 1)
      · rcases form_of_payloadName? hname with ⟨build, hform, -⟩ | ⟨hform, -⟩
        · rw [hform]
          rfl
        · simp only [hform]
          rw [toOption_bind]
          cases (payloadNode first).toOption <;> rfl

/-- The array of a tag and the items after it. -/
theorem result_text_cons {tag : List Piece} {name : String} (htag : textOf? tag = some name)
    (rest : List Spelling) : (Spelling.array (.text tag :: rest)).result read room =
      (inner? room).bind fun room => (rest.mapM (Spelling.result readAny room)).bind fun values =>
        (ofItems name values).toOption := by
  have hresult : ∀ room, (Spelling.text tag).result (readText .variantName) room = some name :=
    fun _ => (toOption_read_quotation 0 0 tag).trans htag
  simp only [result_array_cons, hresult, Option.bind_some]

theorem refused_of_most_lt {tag : List Piece} {name : String} {rest : List Spelling}
    (htag : textOf? tag = some name) (h : most name < rest.length) :
    Refused read (.array (.text tag :: rest)) := by
  refine refused_of_result steady_read fun room => ?_
  rw [result_text_cons htag, Option.bind_eq_none_iff]
  intro room _
  rw [Option.bind_eq_none_iff]
  intro values hvalues
  exact toOption_ofItems_of_most_lt (by rwa [length_of_mapM hvalues])

theorem refused_nil : Refused read (.array []) :=
  refused_of_result steady_read fun room => by
    rw [result_array]
    cases inner? room <;> rfl

/-- A tag alone is accepted. -/
theorem exists_ofItems_nil (tag : String) : ∃ expression, ofItems tag [] = .ok expression := by
  rw [ofItems]
  cases form tag <;> exact ⟨_, rfl⟩

/-- A text of an array with a tag that carries nothing is accepted if nothing follows the tag. -/
theorem exists_parse_iff {tag : List Piece} {name text : String} {rest : List Spelling}
    (htag : textOf? tag = some name) (hname : payloadName? name = none)
    (htext : (Spelling.array (.text tag :: rest)).HasText text) :
    (∃ expression, parse read text = .ok expression) ↔ rest = [] := by
  simp only [← toOption_eq_some_iff, htext.toOption_parse steady_read]
  constructor
  · rintro ⟨expression, hresult⟩
    by_contra hrest
    have hmost : most name < rest.length := by
      rw [most, hname]
      exact List.length_pos_of_ne_nil hrest
    have hrefused := (refused_of_most_lt htag hmost).texts text htext
    rw [htext.toOption_parse steady_read, hresult] at hrefused
    cases hrefused
  · rintro rfl
    obtain ⟨expression, hok⟩ := exists_ofItems_nil name
    refine ⟨expression, ?_⟩
    rw [result_text_cons htag]
    exact toOption_eq_some_iff.2 hok

end Expression

namespace DetectorEntry

def fields : List Field :=
  [⟨["enabled"], Eq⟩, ⟨["exclude"], Eq⟩]

/-- An entry in array notation or object notation, and the same as an object. -/
def Unfolds : Spelling → Spelling → Prop :=
  FieldsUnfold fields

theorem agrees : Agrees read Unfolds :=
  record.agrees (.cons ⟨rfl, agrees_eq⟩ (.cons ⟨rfl, agrees_eq⟩ .nil))

/-- An array has two items at most. -/
theorem refused_of_length (h : 2 < items.length) : Refused read (.array items) :=
  refused_of_result record.steady_read fun _ => record.result_of_too_many h

end DetectorEntry

namespace DefaultAssignment

def fields : List Field :=
  [⟨["parameter"], Eq⟩, ⟨["value"], Expression.Unfolds⟩]

/-- A default in array notation or object notation, and the same as an object. -/
def Unfolds : Spelling → Spelling → Prop :=
  FieldsUnfold fields

theorem agrees : Agrees read Unfolds :=
  record.agrees (.cons ⟨rfl, agrees_eq⟩ (.cons ⟨rfl, Expression.agrees⟩ .nil))

/-- An array has two items. -/
theorem refused_of_length (h : items.length ≠ 2) : Refused read (.array items) := by
  refine refused_of_result record.steady_read fun room => ?_
  rcases Nat.lt_or_gt_of_ne h with hfew | hmany
  · exact record.result_of_too_few (i := 1) (by decide) (fun _ => ofDraft_eq_none)
      (Nat.le_of_lt_succ hfew)
  · exact record.result_of_too_many hmany

end DefaultAssignment

namespace Context

def fields : List Field :=
  [⟨["type"], Eq⟩, ⟨["full_name"], Eq⟩, ⟨["source"], Eq⟩, ⟨["line", "declaration_line"], Eq⟩,
   ⟨["default_assignments"], ItemsUnfold DefaultAssignment.Unfolds⟩,
   ⟨["config_overrides"], ValuesUnfold DetectorEntry.Unfolds⟩]

/-- A context in array notation or object notation, and the same as an object. -/
def Unfolds : Spelling → Spelling → Prop :=
  FieldsUnfold fields

theorem agrees : Agrees read Unfolds :=
  record.agrees <| .cons ⟨rfl, agrees_eq⟩ <| .cons ⟨rfl, agrees_eq⟩ <| .cons ⟨rfl, agrees_eq⟩ <|
    .cons ⟨rfl, agrees_eq⟩ <|
    .cons ⟨rfl, agrees_items DefaultAssignment.record.steady_read DefaultAssignment.agrees⟩ <|
    .cons ⟨rfl, agrees_values DetectorEntry.record.steady_read DetectorEntry.agrees⟩ .nil

/-- An array has four to six items. -/
theorem refused_of_length (h : items.length < 4 ∨ 6 < items.length) :
    Refused read (.array items) := by
  refine refused_of_result record.steady_read fun room => ?_
  rcases h with hfew | hmany
  · exact record.result_of_too_few (i := 3) (by decide) (fun _ => ofDraft_eq_none)
      (Nat.le_of_lt_succ hfew)
  · exact record.result_of_too_many hmany

/--
Two notations of one expression, entry on a detector, default, context or list of contexts
are both refused, or both are read to the same; they are notations of one thing if they
unfold to the same objects.  Arrays of other lengths than those of the fields are refused.
After a tag that carries nothing no item may stand.
-/
theorem notations_agree :
    (Interchangeable Expression.read Expression.Unfolds ∧
      Interchangeable DetectorEntry.read DetectorEntry.Unfolds ∧
      Interchangeable DefaultAssignment.read DefaultAssignment.Unfolds ∧
      Interchangeable read Unfolds ∧
      Interchangeable (readList read) (ItemsUnfold Unfolds)) ∧
    (∀ items : List Spelling,
      (items.length < 4 ∨ 6 < items.length → Refused read (.array items)) ∧
      (items.length ≠ 2 → Refused DefaultAssignment.read (.array items)) ∧
      (2 < items.length → Refused DetectorEntry.read (.array items))) ∧
    Refused Expression.read (.array []) ∧
    (∀ (tag : List Piece) (name : String) (rest : List Spelling), textOf? tag = some name →
      (Expression.payloadName? name = none → ∀ text : String,
        (Spelling.array (.text tag :: rest)).HasText text →
          ((∃ expression, parse Expression.read text = .ok expression) ↔ rest = [])) ∧
      (Expression.most name < rest.length →
        Refused Expression.read (.array (.text tag :: rest)))) := by
  refine ⟨⟨Expression.agrees.interchangeable Expression.steady_read,
    DetectorEntry.agrees.interchangeable DetectorEntry.record.steady_read,
    DefaultAssignment.agrees.interchangeable DefaultAssignment.record.steady_read,
    agrees.interchangeable record.steady_read,
    (agrees_items record.steady_read agrees).interchangeable record.steady_read.list⟩,
    fun items => ⟨refused_of_length, DefaultAssignment.refused_of_length,
      DetectorEntry.refused_of_length⟩, Expression.refused_nil, ?_⟩
  intro tag name rest htag
  exact ⟨fun hname text htext => Expression.exists_parse_iff htag hname htext,
    Expression.refused_of_most_lt htag⟩

/-- A class with one default in array notation, and in notations that are mixed. -/
theorem notations_agree_of_class :
    let array := "[\"class\",\"\",\"\",1,[[\"x\",[\"nil\"]]]]"
    let object := "\x7b\"line\":1,\"type\":\"class\",\"full_name\":\"\",\"source\":\"\"," ++
      "\"default_assignments\":[\x7b\"value\":[\"nil\"],\"parameter\":\"x\"\x7d]\x7d"
    let context := (bare .class "" 1).withDefault "x" .nil
    parse read array = .ok context ∧ parse read object = .ok context := by
  intro array object context
  let key : String → List Piece := plainPieces
  let text (content : String) : Spelling := .text (key content)
  let one : Spelling := .number ⟨false, [1], [], none⟩
  let scalars := [(key "line", one), (key "type", text "class"), (key "full_name", text ""),
    (key "source", text "")]
  let default : Spelling := .array [text "x", .array [text "nil"]]
  let mixedDefault : Spelling :=
    .object [(key "value", .array [text "nil"]), (key "parameter", text "x")]
  let unfoldedDefault : Spelling :=
    .object [(key "value", .object [(key "type", text "nil")]), (key "parameter", text "x")]
  let positional : Spelling :=
    .array [text "class", text "", text "", one, .array [default]]
  let mixed : Spelling := .object (scalars ++ [(key "default_assignments", .array [mixedDefault])])
  let unfolded : Spelling :=
    .object (scalars ++ [(key "default_assignments", .array [unfoldedDefault])])
  have hnil : Expression.Unfolds (.array [text "nil"]) (.object [(key "type", text "nil")]) :=
    .tag (textOf?_plainPieces "type")
  have hpositional : Unfolds positional unfolded := by
    have hdefault : DefaultAssignment.Unfolds default unfoldedDefault :=
      .array (.field Field.isNamed_plainPieces rfl <|
        .field Field.isNamed_plainPieces hnil .omitted) (.swap _ _ _)
    refine .array (.field Field.isNamed_plainPieces rfl <|
      .field Field.isNamed_plainPieces rfl <| .field Field.isNamed_plainPieces rfl <|
      .field Field.isNamed_plainPieces rfl <|
      .field Field.isNamed_plainPieces (.array (.cons hdefault .nil)) .omitted) ?_
    -- The line comes first in the object and fourth in the array.
    exact .trans (.swap _ _ _) (.cons _ (.trans (.swap _ _ _) (.cons _ (.swap _ _ _))))
  have hmixed : Unfolds mixed unfolded := by
    have hvalue : ⟨["value"], Expression.Unfolds⟩ ∈ DefaultAssignment.fields := by
      simp [DefaultAssignment.fields]
    have hdefaults : ⟨["default_assignments"], ItemsUnfold DefaultAssignment.Unfolds⟩ ∈ fields := by
      simp [fields]
    have hdefault : DefaultAssignment.Unfolds mixedDefault unfoldedDefault :=
      .object (.cons (.field hvalue Field.isNamed_plainPieces Field.isNamed_plainPieces hnil)
        (.cons (.same _) .nil)) (.refl _)
    exact .object (.cons (.same _) <| .cons (.same _) <| .cons (.same _) <| .cons (.same _) <|
      .cons (.field hdefaults Field.isNamed_plainPieces Field.isNamed_plainPieces
        (.array (.cons hdefault .nil))) .nil) (.refl _)
  have hone : Spells one ['1'] := spells_digit (c := '1') (by decide)
  have hpieces : ∀ content : String, (∀ c ∈ content.toList, c ≠ '"' ∧ c ≠ '\\' ∧ 32 ≤ c.toNat) →
      SpellsPieces (key content) content.toList := fun _ => spellsPieces_plainPieces
  have hempty : Spells (text "") ['"', '"'] := .text .nil
  have hx : Spells (text "x") ['"', 'x', '"'] := .text (hpieces "x" (by simp))
  have hlist : Spells (.array [text "nil"]) "[\"nil\"]".toList :=
    .array (.item (.first blank_nil) (.text (hpieces "nil" (by simp))) .none) blank_nil
  have harray : positional.HasText array := by
    have hdefault : Spells default "[\"x\",[\"nil\"]]".toList :=
      .array (.item (.first blank_nil) hx (.item (.later blank_nil blank_nil) hlist .none))
        blank_nil
    exact hasText_of_spells <| .array (.item (.first blank_nil)
      (.text (hpieces "class" (by simp))) <| .item (.later blank_nil blank_nil) hempty <|
      .item (.later blank_nil blank_nil) hempty <| .item (.later blank_nil blank_nil) hone <|
      .item (.later blank_nil blank_nil)
        (.array (.item (.first blank_nil) hdefault .none) blank_nil) .none) blank_nil
  have hobject : mixed.HasText object := by
    have hdefault : Spells mixedDefault
        "\x7b\"value\":[\"nil\"],\"parameter\":\"x\"\x7d".toList :=
      .object (.member (.first blank_nil) (hpieces "value" (by simp)) blank_nil blank_nil hlist <|
        .member (.later blank_nil blank_nil) (hpieces "parameter" (by simp)) blank_nil blank_nil
          hx .none) blank_nil
    exact hasText_of_spells <| .object (.member (.first blank_nil) (hpieces "line" (by simp))
        blank_nil blank_nil hone <|
      .member (.later blank_nil blank_nil) (hpieces "type" (by simp)) blank_nil blank_nil
        (.text (hpieces "class" (by simp))) <|
      .member (.later blank_nil blank_nil) (hpieces "full_name" (by simp)) blank_nil blank_nil
        hempty <|
      .member (.later blank_nil blank_nil) (hpieces "source" (by simp)) blank_nil blank_nil
        hempty <|
      .member (.later blank_nil blank_nil) (hpieces "default_assignments" (by simp)) blank_nil
        blank_nil (.array (.item (.first blank_nil) hdefault .none) blank_nil) .none) blank_nil
  obtain ⟨⟨-, -, -, hcontexts, -⟩, -⟩ := notations_agree
  have hsame := (hcontexts positional mixed unfolded hpositional hmixed).texts array object
    harray hobject
  have hread : (parse read array).toOption = some context := by
    rw [harray.toOption_parse record.steady_read]
    rfl
  rw [← toOption_eq_some_iff, ← toOption_eq_some_iff, ← hsame]
  exact ⟨hread, hread⟩

end Context

end CodeSmells
