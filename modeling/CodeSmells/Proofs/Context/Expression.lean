import CodeSmells.Context.Expression
import CodeSmells.Proofs.Json.Reading
import CodeSmells.Proofs.Json.Results

/-!
# Expressions and their JSON

An expression is written as an object with its tag and its payload.  Reading
gives the expression back as long as the payload is a value that readers make.

**Results.**

* `ofMembers_payload`: the tag and the payload of an expression make it again.
* `read_of_holds`: so does a tree of its JSON.
-/

namespace CodeSmells

/-- A value that readers of payloads make, inside which containers are at most so deep. -/
structure Json.IsPayload (room : Nat) (value : Json) : Prop extends Json.IsBounded room value where
  /-- `null` is the same as no payload. -/
  notNull : value ≠ .null
  /-- Objects are maps. -/
  sorted : ∀ members, Json.Inside (.object members) value → SortedNames members

namespace Expression

open Json Fallible

/-- The literal value of an expression, if it has one. -/
def value? : Expression → Option Json
  | int value => value
  | float value => value
  | str value => value
  | sym value => value
  | _ => none

section Reading

variable {room : Nat} {node : Node} {entries : Entries} {expression : Expression}

/-- Members after the tag are gathered, the last one first. -/
theorem fold_of_holds {tag : String} {members : List (String × Json)}
    (met : List (String × Json)) (h : entries.Holds members)
    (hnames : ∀ e ∈ members, e.1 ≠ "type") (hroom : ∀ e ∈ members, e.2.nesting ≤ room) :
    ∃ stop, entries.fold (field room) ⟨some tag, met⟩ =
      .ok (⟨some tag, members.reverse ++ met⟩, stop) := by
  induction members generalizing entries met with
  | nil => exact fold_of_holds_nil _ _ h
  | cons e members ih =>
      obtain ⟨name, value⟩ := e
      have hname : name ≠ "type" := hnames (name, value) (by simp)
      have hvalue : value.nesting ≤ room := hroom (name, value) (by simp)
      have hfield : field room ⟨some tag, met⟩ name = .known fun node =>
          (readAny room node).map fun value => ⟨some tag, (name, value) :: met⟩ := by
        rw [field, if_neg hname]
      obtain ⟨more, hmore, hfold⟩ :=
        fold_of_holds_cons h hfield fun node hnode => readAny_of_holds hnode hvalue
      obtain ⟨stop, hstop⟩ := ih ((name, value) :: met) hmore
        (fun e he => hnames e (by simp [he])) (fun e he => hroom e (by simp [he]))
      exact ⟨stop, by rw [hfold, hstop, List.reverse_cons, List.append_assoc]; rfl⟩

/-- The tag and the payload of an expression make the expression again. -/
theorem ofMembers_payload (h : ∀ value ∈ expression.value?, IsPayload room value) :
    ofMembers expression.tag expression.payload = .ok expression := by
  have hvalue : ∀ value : Json, IsPayload room value → payloadValue value = some value := by
    intro value hpayload
    have hsorted := sortMembers_of_sorted hpayload.sorted
    have hnull := hpayload.notNull
    cases value <;> simp_all [payloadValue]
  cases expression with
  | true | false | nil | unknown | other => rfl
  | int value | float value | str value | sym value =>
      cases value with
      | none => rfl
      | some value =>
          have hsome := hvalue value (h value rfl)
          simp [ofMembers, form, tag, payload, soleValue, hsome, ok_bind, Except.map]

/-- Beside the tag there is at most a node or a value. -/
theorem eq_of_mem_payload {e : String × Json} (h : e ∈ expression.payload) :
    (∃ node, e = ("node", .text node)) ∨ ∃ value ∈ expression.value?, e = ("value", value) := by
  cases expression with
  | true | false | nil | unknown => cases h
  | other node => exact .inl ⟨node, List.mem_singleton.1 h⟩
  | int value | float value | str value | sym value =>
      cases value with
      | none => cases h
      | some value => exact .inr ⟨value, rfl, List.mem_singleton.1 h⟩

theorem name_of_mem_payload {e : String × Json} (h : e ∈ expression.payload) :
    e.1 ≠ "type" := by
  have hnode : "node" ≠ "type" := by decide
  have hvalue : "value" ≠ "type" := by decide
  rcases eq_of_mem_payload h with ⟨node, rfl⟩ | ⟨value, -, rfl⟩
  · exact hnode
  · exact hvalue

theorem nesting_of_mem_payload (hpayload : ∀ value ∈ expression.value?, IsPayload room value)
    {e : String × Json} (h : e ∈ expression.payload) : e.2.nesting ≤ room := by
  rcases eq_of_mem_payload h with ⟨node, rfl⟩ | ⟨value, hvalue, rfl⟩
  · exact Nat.zero_le room
  · exact (hpayload value hvalue).nesting

/-- An expression is read from a tree of its JSON. -/
theorem read_of_holds (h : node.Holds expression.toJson)
    (hpayload : ∀ value ∈ expression.value?, IsPayload room value) :
    read (room + 1) node = .ok expression := by
  cases h with
  | @object start entries _ hentries =>
      have hfield : field room ⟨none, []⟩ "type" = .known fun node =>
          (readText .variantName room node).map fun tag => ⟨some tag, []⟩ := by
        rw [field, if_pos rfl]
        rfl
      obtain ⟨more, hmore, hfold⟩ :=
        fold_of_holds_cons hentries hfield fun node hnode => readText_of_holds hnode
      obtain ⟨stop, hstop⟩ := fold_of_holds [] hmore (fun _ => name_of_mem_payload)
        (fun _ => nesting_of_mem_payload hpayload)
      rw [List.append_nil] at hstop
      rw [read, enter]
      simp only [hfold]
      rw [hstop]
      simp only [ok_bind, requireField, List.reverse_reverse]
      exact ofMembers_payload hpayload

end Reading

section Results

variable {room : Nat} {node : Node} {expression : Expression}

/-- A payload that is taken over has its members sorted. -/
theorem isPayload_of_payloadValue {value payload : Json} (hbounded : IsBounded room value)
    (h : payloadValue value = some payload) : IsPayload room payload := by
  have hnull : value ≠ .null := by
    rintro rfl
    cases h
  have hsorted : payload = sortMembers value := by
    cases value <;> simp_all [payloadValue]
  rw [hsorted]
  refine ⟨hbounded.sortMembers, ?_, fun _ => sorted_of_inside_sortMembers⟩
  cases value <;> simp_all [sortMembers]

/-- A sole value was seen before or is the value of a member. -/
theorem exists_of_soleValue {α : Type} {name : String} {read : Json → Reading α}
    {seen found : Option α} {members : List (String × Json)}
    (h : soleValue name read seen members = .ok found) :
    ∀ x ∈ found, x ∈ seen ∨ ∃ e ∈ members, read e.2 = .ok x := by
  induction members generalizing seen with
  | nil =>
      cases h
      exact fun x hx => .inl hx
  | cons e members ih =>
      obtain ⟨key, value⟩ := e
      unfold soleValue at h
      by_cases hkey : key = name
      · rw [if_pos hkey] at h
        cases seen with
        | some _ => cases h
        | none =>
            obtain ⟨first, hfirst, h⟩ := bind_eq_ok_iff.1 h
            intro x hx
            rcases ih h x hx with hseen | ⟨e, he, hread⟩
            · cases hseen
              exact .inr ⟨(key, value), by simp, hfirst⟩
            · exact .inr ⟨e, List.mem_cons_of_mem _ he, hread⟩
      · rw [if_neg hkey] at h
        intro x hx
        rcases ih h x hx with hseen | ⟨e, he, hread⟩
        · exact .inl hseen
        · exact .inr ⟨e, List.mem_cons_of_mem _ he, hread⟩

/-- Forms without a value make expressions without one. -/
theorem value_of_plain {tag : String} (h : form tag = .plain expression) :
    expression.value? = none := by
  unfold form at h
  split_ifs at h <;> cases h <;> rfl

theorem value_of_withValue {tag : String} {build : Option Json → Expression}
    (h : form tag = .withValue build) (value : Option Json) : (build value).value? = value := by
  unfold form at h
  split_ifs at h <;> cases h <;> rfl

theorem isPayload_of_ofMembers {tag : String} {members : List (String × Json)}
    (hmembers : ∀ e ∈ members, IsBounded room e.2)
    (h : ofMembers tag members = .ok expression) :
    ∀ value ∈ expression.value?, IsPayload room value := by
  unfold ofMembers at h
  split at h
  next hform =>
      cases h
      rw [value_of_plain hform]
      exact nofun
  next build hform =>
      obtain ⟨found, hfound, rfl⟩ := map_eq_ok_iff.1 h
      rw [value_of_withValue hform]
      intro value hvalue
      cases found with
      | none => cases hvalue
      | some first =>
          rcases exists_of_soleValue hfound first rfl with hseen | ⟨e, he, hread⟩
          · cases hseen
          · rw [Option.getD_some] at hvalue
            exact isPayload_of_payloadValue (hmembers e he) ((Except.ok.inj hread).trans hvalue)
  next =>
      obtain ⟨found, -, rfl⟩ := map_eq_ok_iff.1 h
      exact nofun

theorem isPayload_of_ofItems {tag : String} {items : List Json}
    (hitems : ∀ v ∈ items, IsBounded room v) (h : ofItems tag items = .ok expression) :
    ∀ value ∈ expression.value?, IsPayload room value := by
  unfold ofItems at h
  split at h
  next hform =>
      split at h
      · cases h
        rw [value_of_plain hform]
        exact nofun
      · cases h
  next build hform =>
      split at h
      · cases h
        rw [value_of_withValue hform]
        exact nofun
      · cases h
        rw [value_of_withValue hform]
        exact fun value hvalue => isPayload_of_payloadValue (hitems _ (by simp)) hvalue
      · cases h
  next =>
      split at h
      · cases h
        exact nofun
      · obtain ⟨found, -, rfl⟩ := map_eq_ok_iff.1 h
        exact nofun
      · obtain ⟨found, -, h⟩ := bind_eq_ok_iff.1 h
        cases h

/-- Members that are gathered are bounded. -/
theorem isBounded_of_fold {entries : Entries} {draft : Draft} {stop : Nat}
    (h : entries.fold (field room) ⟨none, []⟩ = .ok (draft, stop)) :
    ∀ e ∈ draft.members, IsBounded room e.2 := by
  refine fold_preserves (P := fun draft => ∀ e ∈ draft.members, IsBounded room e.2)
    ?_ entries nofun h
  intro draft name read node draft' hfield hdraft hread
  unfold field at hfield
  split_ifs at hfield
  · cases hfield
    obtain ⟨tag, -, rfl⟩ := map_eq_ok_iff.1 hread
    exact hdraft
  · cases hfield
    obtain ⟨value, hvalue, rfl⟩ := map_eq_ok_iff.1 hread
    intro e he
    rcases List.mem_cons.1 he with rfl | hmem
    · exact isBounded_of_readAny node hvalue
    · exact hdraft e hmem

/-- The payload of an expression that is read is one that readers make. -/
theorem isPayload_of_read (h : read room node = .ok expression) :
    ∀ value ∈ expression.value?, IsPayload (room - 1) value := by
  unfold read at h
  split at h
  next =>
      obtain ⟨⟨tag, members⟩, hparts, hmembers⟩ := bind_eq_ok_iff.1 h
      obtain ⟨inner, rfl, hfold⟩ := enter_eq_ok_iff.1 hparts
      obtain ⟨⟨draft, stop⟩, hdraft, hfold⟩ := bind_eq_ok_iff.1 hfold
      obtain ⟨tag', -, hfold⟩ := bind_eq_ok_iff.1 hfold
      cases hfold
      have hbounded := isBounded_of_fold hdraft
      exact isPayload_of_ofMembers (fun e he => hbounded e (List.mem_reverse.1 he)) hmembers
  next =>
      obtain ⟨⟨tag, values⟩, hparts, hitems⟩ := bind_eq_ok_iff.1 h
      obtain ⟨inner, rfl, hinner⟩ := enter_eq_ok_iff.1 hparts
      split at hinner
      next => cases hinner
      next => cases hinner
      next =>
          obtain ⟨tag', -, hinner⟩ := bind_eq_ok_iff.1 hinner
          obtain ⟨values', hvalues, hinner⟩ := bind_eq_ok_iff.1 hinner
          cases hinner
          refine isPayload_of_ofItems (fun v hv => ?_) hitems
          obtain ⟨item, hitem⟩ := exists_of_readAll hvalues v hv
          exact isBounded_of_readAny item hitem
  next => exact absurd h not_refuse

end Results

end Expression
end CodeSmells
