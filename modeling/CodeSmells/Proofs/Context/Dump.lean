import CodeSmells.Context.Dump
import CodeSmells.Files.Load
import CodeSmells.Proofs.Context.Expression
import CodeSmells.Proofs.Json.Results
import CodeSmells.Proofs.Json.Scanning
import CodeSmells.Proofs.Settings

/-!
# Dumps give their contexts back

The JSON of a context is read back field by field: fields that are left out
have the value that stands for nothing said.

**Results.**

* `read_of_holds`: defaults and contexts are read from trees of their JSON.
* `parseDump_dump`: a dump is read to the contexts that it was made of.
-/

namespace CodeSmells

open Json Fallible

namespace DefaultAssignment

variable {room : Nat} {node : Node} {assignment : DefaultAssignment}

theorem field_parameter (room : Nat) (draft : Draft) (h : draft.parameter = none) :
    field room draft "parameter" = .known fun node =>
      (readText .string room node).map fun value => { draft with parameter := some value } := by
  simp [field, h]

theorem field_value (room : Nat) (draft : Draft) (h : draft.value = none) :
    field room draft "value" = .known fun node =>
      (Expression.read room node).map fun value => { draft with value := some value } := by
  simp [field, h]

/-- A default is read from a tree of its JSON. -/
theorem read_of_holds (h : node.Holds assignment.toJson)
    (hpayload : ∀ value ∈ assignment.value.value?, IsPayload room value) :
    read (room + 2) node = .ok assignment := by
  obtain ⟨parameter, value⟩ := assignment
  cases h with
  | @object start entries _ hentries =>
      obtain ⟨more, hmore, hparameter⟩ := fold_of_holds_cons hentries
        (field_parameter (room + 1) ⟨none, none⟩ rfl) fun node hnode => readText_of_holds hnode
      obtain ⟨rest, hrest, hvalue⟩ := fold_of_holds_cons hmore
        (field_value (room + 1) ⟨some parameter, none⟩ rfl)
        fun node hnode => Expression.read_of_holds hnode hpayload
      obtain ⟨stop, hstop⟩ :=
        fold_of_holds_nil (field (room + 1)) ⟨some parameter, some value⟩ hrest
      rw [read, enter]
      simp only [hparameter.trans (hvalue.trans hstop), ok_bind, requireField]

/-- A payload is printed as a text of it, if there are no fractions in it. -/
theorem writes_toJson (hpayload : ∀ value ∈ assignment.value.value?, IsPayload room value)
    (hreal : ∀ value ∈ assignment.value.value?, ∀ x, ¬ Inside (.real x) value) :
    Writes assignment.toJson assignment.toJson.render := by
  have hvalue : Writes assignment.value.toJson assignment.value.toJson.render := by
    apply writes_object
    intro e he
    rcases List.mem_cons.1 he with rfl | hmem
    · exact writes_text _
    · rcases Expression.eq_of_mem_payload hmem with ⟨node, rfl⟩ | ⟨value, hvalue, rfl⟩
      · exact writes_text node
      · exact writes_render value (hreal value hvalue) (hpayload value hvalue).integers
  apply writes_object
  intro e he
  rcases List.mem_cons.1 he with rfl | hmem
  · exact writes_text _
  · rw [List.mem_singleton.1 hmem]
    exact hvalue

/-- The payload of a default that is read is one that readers make. -/
theorem isPayload_of_read (h : read room node = .ok assignment) :
    ∀ value ∈ assignment.value.value?, IsPayload (room - 2) value := by
  unfold read at h
  split at h
  next entries =>
      obtain ⟨inner, rfl, h⟩ := enter_eq_ok_iff.1 h
      obtain ⟨⟨draft, stop⟩, hdraft, h⟩ := bind_eq_ok_iff.1 h
      obtain ⟨parameter, -, h⟩ := bind_eq_ok_iff.1 h
      obtain ⟨value, hvalue, h⟩ := bind_eq_ok_iff.1 h
      cases h
      have hkept : ∀ value ∈ draft.value, ∀ payload ∈ value.value?,
          IsPayload (inner - 1) payload := by
        refine fold_preserves (P := fun draft => ∀ value ∈ draft.value, ∀ payload ∈ value.value?,
          IsPayload (inner - 1) payload) ?_ entries nofun hdraft
        intro draft name read node draft' hfield hold hread
        unfold field at hfield
        split_ifs at hfield <;> cases hfield
        · obtain ⟨parameter, -, rfl⟩ := map_eq_ok_iff.1 hread
          exact hold
        · obtain ⟨value, hvalue, rfl⟩ := map_eq_ok_iff.1 hread
          rintro _ ⟨⟩
          exact Expression.isPayload_of_read hvalue
      exact hkept value (requireField_eq_ok_iff.1 hvalue)
  next =>
      obtain ⟨inner, rfl, h⟩ := enter_eq_ok_iff.1 h
      obtain ⟨⟨parameter, items⟩, -, h⟩ := bind_eq_ok_iff.1 h
      obtain ⟨⟨value, items⟩, hvalue, h⟩ := bind_eq_ok_iff.1 h
      obtain ⟨-, -, h⟩ := bind_eq_ok_iff.1 h
      cases h
      obtain ⟨item, hitem⟩ := exists_of_required hvalue
      exact Expression.isPayload_of_read hitem
  next => exact absurd h not_refuse

end DefaultAssignment

/-- A kind is read from its name. -/
theorem Kind.read_of_holds {room : Nat} {node : Node} {kind : Kind}
    (h : node.Holds (.text kind.name)) : Kind.read room node = .ok kind := by
  cases h with
  | text hread =>
      have hname : ofName? kind.name = some kind := by
        cases kind <;> decide
      rw [read, ofQuotation, hread, ok_bind, hname]

namespace Context

variable {room : Nat} {node : Node} {context : Context}

theorem field_type (room : Nat) (draft : Draft) (h : draft.kind = none) :
    field room draft "type" = .known fun node =>
      (Kind.read room node).map fun value => { draft with kind := some value } := by
  simp [field, h]

theorem field_fullName (room : Nat) (draft : Draft) (h : draft.fullName = none) :
    field room draft "full_name" = .known fun node =>
      (readText .string room node).map fun value => { draft with fullName := some value } := by
  simp [field, h]

theorem field_source (room : Nat) (draft : Draft) (h : draft.source = none) :
    field room draft "source" = .known fun node =>
      (readText .path room node).map fun value => { draft with source := some value } := by
  simp [field, h]

theorem field_line (room : Nat) (draft : Draft) (h : draft.line = none) :
    field room draft "line" = .known fun node =>
      (readNatural room node).map fun value => { draft with line := some value } := by
  simp [field, h]

theorem field_defaultAssignments (room : Nat) (draft : Draft)
    (h : draft.defaultAssignments = none) :
    field room draft "default_assignments" = .known fun node =>
      (readList DefaultAssignment.read room node).map fun value =>
        { draft with defaultAssignments := some value } := by
  simp [field, h]

theorem field_overrides (room : Nat) (draft : Draft) (h : draft.overrides = none) :
    field room draft "config_overrides" = .known fun node =>
      (readMap DetectorEntry.read room node).map fun value =>
        { draft with overrides := some value } := by
  simp [field, h]

/--
What a dump keeps: lines of 64 bits and payloads that readers make.  A payload
stands inside five containers: the dump, the context, the list of its defaults,
the default and the expression.
-/
structure IsKept (context : Context) : Prop where
  line : context.line < 2 ^ 64
  payloads : ∀ assignment ∈ context.defaultAssignments,
    ∀ value ∈ assignment.value.value?, IsPayload (maxDepth - 5) value

/-- Overrides are found where they are written, and none where they are left out. -/
theorem foldOverrides_of_holds {entries : Entries} {overrides : NameMap DetectorEntry}
    (draft : Draft) (hdraft : draft.overrides = none)
    (h : entries.Holds (if overrides.isEmpty then [] else
      [("config_overrides", Json.ofMap DetectorEntry.toJson overrides.entries)])) :
    ∃ draft' stop, entries.fold (field (room + 3)) draft = .ok (draft', stop) ∧
      draft' = { draft with overrides := draft'.overrides } ∧
      draft'.overrides.getD NameMap.empty = overrides := by
  by_cases hempty : overrides.isEmpty = true
  · rw [if_pos hempty] at h
    obtain ⟨stop, hstop⟩ := fold_of_holds_nil (field (room + 3)) draft h
    refine ⟨draft, stop, hstop, rfl, ?_⟩
    rw [hdraft]
    exact NameMap.ext_entries (List.isEmpty_iff.1 hempty).symm
  · rw [if_neg hempty] at h
    obtain ⟨more, hmore, hfold⟩ := fold_of_holds_cons h (field_overrides _ draft hdraft)
      fun node hnode => readMap_of_holds hnode fun e _ item hitem =>
        DetectorEntry.read_of_holds hitem
    obtain ⟨stop, hstop⟩ := fold_of_holds_nil _ _ hmore
    exact ⟨_, stop, hfold.trans hstop, rfl, rfl⟩

/-- A context is read from a tree of its JSON. -/
theorem read_of_holds (h : node.Holds context.toJson)
    (hpayload : ∀ assignment ∈ context.defaultAssignments,
      ∀ value ∈ assignment.value.value?, IsPayload room value) :
    read (room + 4) node = .ok context := by
  obtain ⟨kind, fullName, source, line, defaults, overrides⟩ := context
  cases h with
  | @object start entries _ hentries =>
      obtain ⟨_, hentries, htype⟩ := fold_of_holds_cons hentries
        (field_type (room + 3) ⟨none, none, none, none, none, none⟩ rfl)
        fun node hnode => Kind.read_of_holds hnode
      obtain ⟨_, hentries, hname⟩ := fold_of_holds_cons hentries
        (field_fullName (room + 3) ⟨some kind, none, none, none, none, none⟩ rfl)
        fun node hnode => readText_of_holds hnode
      obtain ⟨_, hentries, hsource⟩ := fold_of_holds_cons hentries
        (field_source (room + 3) ⟨some kind, some fullName, none, none, none, none⟩ rfl)
        fun node hnode => readText_of_holds hnode
      obtain ⟨_, hentries, hline⟩ := fold_of_holds_cons hentries
        (field_line (room + 3) ⟨some kind, some fullName, some source.text, none, none, none⟩ rfl)
        fun node hnode => readNatural_of_holds hnode
      obtain ⟨_, hentries, hdefaults⟩ := fold_of_holds_cons hentries
        (field_defaultAssignments (room + 3)
          ⟨some kind, some fullName, some source.text, some line, none, none⟩ rfl)
        fun node hnode => readList_of_holds hnode fun assignment hmem item hitem =>
          DefaultAssignment.read_of_holds hitem (hpayload assignment hmem)
      obtain ⟨draft, stop, hfold, hdraft, hoverrides⟩ := foldOverrides_of_holds
        ⟨some kind, some fullName, some source.text, some line, some defaults, none⟩ rfl hentries
      have hall := htype.trans (hname.trans (hsource.trans (hline.trans (hdefaults.trans hfold))))
      rw [read, enter]
      simp only [hall, ok_bind]
      rw [hdraft]
      simp only [requireField, ok_bind, Option.getD_some, hoverrides]

/-- A context is printed as a text of its JSON, if there are no fractions in it. -/
theorem writes_toJson (h : IsKept context)
    (hreal : ∀ assignment ∈ context.defaultAssignments,
      ∀ value ∈ assignment.value.value?, ∀ x, ¬ Inside (.real x) value) :
    Writes context.toJson context.toJson.render := by
  have hline : Writes (.natural context.line) (Json.natural context.line).render := by
    have hlow : -2 ^ 63 ≤ (context.line : Int) := by omega
    have hhigh : (context.line : Int) < 2 ^ 64 := by exact_mod_cast h.line
    exact writes_integer hlow hhigh
  have hdefaults : Writes (.array (context.defaultAssignments.map DefaultAssignment.toJson))
      (Json.array (context.defaultAssignments.map DefaultAssignment.toJson)).render := by
    apply writes_array
    intro v hv
    obtain ⟨assignment, hmem, rfl⟩ := List.mem_map.1 hv
    exact DefaultAssignment.writes_toJson (h.payloads assignment hmem) (hreal assignment hmem)
  have hoverrides : Writes (Json.ofMap DetectorEntry.toJson context.overrides.entries)
      (Json.ofMap DetectorEntry.toJson context.overrides.entries).render := by
    apply writes_object
    intro e he
    obtain ⟨entry, -, rfl⟩ := List.mem_map.1 he
    exact DetectorEntry.writes_toJson entry.2
  apply writes_object
  intro e he
  rcases List.mem_append.1 he with hfixed | hlast
  · simp only [List.mem_cons, List.not_mem_nil, or_false] at hfixed
    rcases hfixed with rfl | rfl | rfl | rfl | rfl
    · exact writes_text _
    · exact writes_text _
    · exact writes_text _
    · exact hline
    · exact hdefaults
  · by_cases hempty : context.overrides.isEmpty = true
    · rw [if_pos hempty] at hlast
      cases hlast
    · rw [if_neg hempty] at hlast
      rw [List.mem_singleton.1 hlast]
      exact hoverrides

/-- What is read into a draft can be kept. -/
structure Draft.IsKept (room : Nat) (draft : Draft) : Prop where
  line : ∀ line ∈ draft.line, line < 2 ^ 64
  payloads : ∀ defaults ∈ draft.defaultAssignments, ∀ assignment ∈ defaults,
    ∀ value ∈ assignment.value.value?, IsPayload (room - 3) value

theorem payloads_of_readList {defaults : List DefaultAssignment}
    (h : readList DefaultAssignment.read room node = .ok defaults) :
    ∀ assignment ∈ defaults, ∀ value ∈ assignment.value.value?, IsPayload (room - 3) value := by
  obtain ⟨inner, rfl, hitems⟩ := exists_of_readList h
  intro assignment hmem
  obtain ⟨item, hitem⟩ := hitems assignment hmem
  exact DefaultAssignment.isPayload_of_read hitem

theorem isKept_of_fold {entries : Entries} {draft : Draft} {stop : Nat}
    (h : entries.fold (field room) ⟨none, none, none, none, none, none⟩ = .ok (draft, stop)) :
    draft.IsKept room := by
  have hempty : Draft.IsKept room ⟨none, none, none, none, none, none⟩ :=
    ⟨fun _ hnone => (nomatch hnone), fun _ hnone => (nomatch hnone)⟩
  refine fold_preserves (P := Draft.IsKept room) ?_ entries hempty h
  intro draft name read node draft' hfield hdraft hread
  unfold field at hfield
  split_ifs at hfield <;> cases hfield <;> obtain ⟨value, hvalue, rfl⟩ := map_eq_ok_iff.1 hread
  · exact ⟨hdraft.line, hdraft.payloads⟩
  · exact ⟨hdraft.line, hdraft.payloads⟩
  · exact ⟨hdraft.line, hdraft.payloads⟩
  · refine ⟨?_, hdraft.payloads⟩
    rintro _ ⟨⟩
    exact lt_of_readNatural hvalue
  · refine ⟨hdraft.line, ?_⟩
    rintro _ ⟨⟩
    exact payloads_of_readList hvalue
  · exact ⟨hdraft.line, hdraft.payloads⟩

theorem payloads_of_getD {defaults : Option (List DefaultAssignment)}
    (h : ∀ listed ∈ defaults, ∀ assignment ∈ listed,
      ∀ value ∈ assignment.value.value?, IsPayload room value) :
    ∀ assignment ∈ defaults.getD [], ∀ value ∈ assignment.value.value?,
      IsPayload room value := by
  cases defaults with
  | none => exact fun _ hmem => nomatch hmem
  | some listed => exact h listed rfl

/-- A context that is read can be kept. -/
theorem isKept_of_read (h : read (maxDepth - 1) node = .ok context) : IsKept context := by
  unfold read at h
  split at h
  next entries =>
      obtain ⟨inner, hroom, h⟩ := enter_eq_ok_iff.1 h
      obtain ⟨⟨draft, stop⟩, hdraft, h⟩ := bind_eq_ok_iff.1 h
      obtain ⟨kind, -, h⟩ := bind_eq_ok_iff.1 h
      obtain ⟨line, hline, h⟩ := bind_eq_ok_iff.1 h
      cases h
      obtain rfl : inner = maxDepth - 2 := by omega
      have hkept := isKept_of_fold hdraft
      exact ⟨hkept.line line (requireField_eq_ok_iff.1 hline), payloads_of_getD hkept.payloads⟩
  next =>
      obtain ⟨inner, hroom, h⟩ := enter_eq_ok_iff.1 h
      obtain ⟨⟨kind, items⟩, -, h⟩ := bind_eq_ok_iff.1 h
      obtain ⟨⟨fullName, items⟩, -, h⟩ := bind_eq_ok_iff.1 h
      obtain ⟨⟨source, items⟩, -, h⟩ := bind_eq_ok_iff.1 h
      obtain ⟨⟨line, items⟩, hline, h⟩ := bind_eq_ok_iff.1 h
      obtain ⟨⟨defaults, items⟩, hdefaults, h⟩ := bind_eq_ok_iff.1 h
      obtain ⟨⟨overrides, items⟩, -, h⟩ := bind_eq_ok_iff.1 h
      obtain ⟨-, -, h⟩ := bind_eq_ok_iff.1 h
      cases h
      obtain rfl : inner = maxDepth - 2 := by omega
      obtain ⟨item, hitem⟩ := exists_of_required hline
      refine ⟨lt_of_readNatural hitem, payloads_of_getD ?_⟩
      rintro listed rfl
      obtain ⟨item, hitem⟩ := exists_of_next hdefaults
      exact payloads_of_readList hitem
  next => exact absurd h not_refuse

/-- All contexts of a text can be kept. -/
theorem isKept_of_parseDump {text : String} {contexts : List Context}
    (h : parseDump text = .ok contexts) : ∀ context ∈ contexts, IsKept context := by
  obtain ⟨node, hnode⟩ := exists_of_parse h
  obtain ⟨inner, hroom, hitems⟩ := exists_of_readList hnode
  obtain rfl : inner = maxDepth - 1 := by omega
  intro context hmem
  obtain ⟨item, hitem⟩ := hitems context hmem
  exact isKept_of_read hitem

/-- A dump is read to the contexts that it was made of. -/
theorem parseDump_dump {contexts : List Context} (hkept : ∀ context ∈ contexts, IsKept context)
    (hreal : ∀ context ∈ contexts, ∀ assignment ∈ context.defaultAssignments,
      ∀ value ∈ assignment.value.value?, ∀ x, ¬ Inside (.real x) value) :
    parseDump (dump contexts).compact = .ok contexts := by
  have hwrites : Writes (dump contexts) (dump contexts).render := by
    apply writes_array
    intro v hv
    obtain ⟨context, hmem, rfl⟩ := List.mem_map.1 hv
    exact writes_toJson (hkept context hmem) (hreal context hmem)
  apply parse_compact hwrites
  intro node hnode
  exact readList_of_holds hnode fun context hmem item hitem =>
    read_of_holds hitem (hkept context hmem).payloads

/-- Contexts whose defaults carry no values are read from their dump. -/
theorem parseDump_dump_of_bare {contexts : List Context}
    (hline : ∀ context ∈ contexts, context.line < 2 ^ 64)
    (hbare : ∀ context ∈ contexts, ∀ assignment ∈ context.defaultAssignments,
      assignment.value.value? = none) :
    parseDump (dump contexts).compact = .ok contexts := by
  apply parseDump_dump
  · intro context hcontext
    refine ⟨hline context hcontext, fun assignment hmem => ?_⟩
    rw [hbare context hcontext assignment hmem]
    exact nofun
  · intro context hcontext assignment hmem
    rw [hbare context hcontext assignment hmem]
    exact nofun

end Context

end CodeSmells
