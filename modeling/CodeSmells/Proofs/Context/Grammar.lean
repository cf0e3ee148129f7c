import CodeSmells.Proofs.Context.Parts
import CodeSmells.Proofs.Json.Naturals

/-!
# The grammar of a context

An object is read as a context in one pass over its members, but which context it is
depends on the fields among them only: on one value under `type`, one under the two
names of the line, and at most one under each of the other names.  The order of the
members, other members and the name of the line play no part.

**Results.**

* `leads_iff`: the members of an object fill the fields of a context, in any order.
* `means_read`, `exists_describes_iff`: which context an object is, and if it is one.
* `Describes.of_fieldsIn`: objects with the same fields describe the same contexts.
* `object_grammar`: the texts of objects that are read as contexts, alone and in dumps.
-/

namespace CodeSmells.Context

open Json Fallible

variable {room : Nat}

/-- The fields of a context; the line has two names. -/
def layout : Layout Draft where
  slots :=
    [⟨_, ["type"], "type", Draft.kind, fun x draft => { draft with kind := some x },
      fun _ _ => rfl, _, _, Kind.readsAs_read⟩,
     ⟨_, ["full_name"], "full_name", Draft.fullName,
      fun x draft => { draft with fullName := some x }, fun _ _ => rfl, _, _,
      readsAs_text .string⟩,
     ⟨_, ["source"], "source", Draft.source, fun x draft => { draft with source := some x },
      fun _ _ => rfl, _, _, readsAs_text .path⟩,
     ⟨_, ["line", "declaration_line"], "line", Draft.line,
      fun x draft => { draft with line := some x }, fun _ _ => rfl, _, _, readsAs_natural⟩,
     ⟨_, ["default_assignments"], "default_assignments", Draft.defaultAssignments,
      fun x draft => { draft with defaultAssignments := some x }, fun _ _ => rfl, _, _,
      readsAs_list DefaultAssignment.readsAs_read.accepted⟩,
     ⟨_, ["config_overrides"], "config_overrides", Draft.overrides,
      fun x draft => { draft with overrides := some x }, fun _ _ => rfl, _, _,
      readsAs_map DetectorEntry.readsAs_read.accepted⟩]
  apart := by simp [Slot.Apart]
  ext := by
    rintro ⟨_, _, _, _, _, _⟩ ⟨_, _, _, _, _, _⟩ h
    simpa using h

theorem field_eq_rule (room : Nat) : field room = layout.rule room := by
  funext draft name
  by_cases htype : name = "type"
  · simp [field, Layout.rule, layout, slotRule, htype]
  by_cases hname : name = "full_name"
  · simp [field, Layout.rule, layout, slotRule, hname]
  by_cases hsource : name = "source"
  · simp [field, Layout.rule, layout, slotRule, hsource]
  by_cases hline : name = "line" ∨ name = "declaration_line"
  · simp [field, Layout.rule, layout, slotRule, htype, hname, hsource, hline]
  by_cases hdefaults : name = "default_assignments"
  · simp [field, Layout.rule, layout, slotRule, hdefaults]
  by_cases hoverrides : name = "config_overrides"
  · simp [field, Layout.rule, layout, slotRule, hoverrides]
  · simp [field, Layout.rule, layout, htype, hname, hsource, hline, hdefaults, hoverrides]

/-- The fields of a context after its members. -/
theorem leads_iff {entries : Entries} {members : List (String × Json)}
    (h : entries.Holds members) (hreadable : ∀ e ∈ members, IsReadable room e.2)
    (draft result : Draft) :
    Leads (field room) entries draft result ↔
      Fills Kind.Meaning (valuesUnder ["type"] members) draft.kind result.kind ∧
      Fills TextOf (valuesUnder ["full_name"] members) draft.fullName result.fullName ∧
      Fills TextOf (valuesUnder ["source"] members) draft.source result.source ∧
      Fills NaturalOf (valuesUnder ["line", "declaration_line"] members) draft.line result.line ∧
      Fills (ArrayOf (Accepted DefaultAssignment.read))
        (valuesUnder ["default_assignments"] members)
        draft.defaultAssignments result.defaultAssignments ∧
      Fills (MapOf (Accepted DetectorEntry.read)) (valuesUnder ["config_overrides"] members)
        draft.overrides result.overrides := by
  rw [field_eq_rule, layout.leads_iff h hreadable]
  simp [layout, Slot.Filled]

section Objects

variable {members other : List (String × Json)} {context : Context}

/-- What the members of an object say of a context. -/
structure Describes (members : List (String × Json)) (context : Context) : Prop where
  kind : Sole (valuesUnder ["type"] members) (Kind.Meaning · context.kind)
  fullName : SoleOr (valuesUnder ["full_name"] members) (TextOf · context.fullName)
    (context.fullName = "")
  source : SoleOr (valuesUnder ["source"] members) (TextOf · context.source.text)
    (context.source.text = "")
  line : Sole (valuesUnder ["line", "declaration_line"] members) (NaturalOf · context.line)
  defaultAssignments : SoleOr (valuesUnder ["default_assignments"] members)
    (ArrayOf (Accepted DefaultAssignment.read) · context.defaultAssignments)
    (context.defaultAssignments = [])
  overrides : SoleOr (valuesUnder ["config_overrides"] members)
    (MapOf (Accepted DetectorEntry.read) · context.overrides)
    (context.overrides = NameMap.empty)

/-- An object means the one context that its members describe. -/
theorem means_read (members : List (String × Json)) :
    Means read (.object members) (Describes members) := by
  intro room node hnode hreadable context
  obtain ⟨inner, rfl, hmembers⟩ := hreadable.members
  cases hnode with
  | @object start entries _ hentries =>
      have hread : read (inner + 1) (.object start entries) = .ok context ↔
          ∃ draft, Leads (field inner) entries ⟨none, none, none, none, none, none⟩ draft ∧
            ∃ kind line, draft.kind = some kind ∧ draft.line = some line ∧
              ⟨kind, draft.fullName.getD "", ⟨draft.source.getD ""⟩, line,
                draft.defaultAssignments.getD [], draft.overrides.getD NameMap.empty⟩ =
                context := by
        simp only [read, enter, bind_eq_ok_iff, Leads, requireField_eq_ok_iff]
        constructor
        · rintro ⟨⟨draft, stop⟩, hfold, kind, hkind, line, hline, hcontext⟩
          exact ⟨draft, ⟨stop, hfold⟩, kind, line, hkind, hline, Except.ok.inj hcontext⟩
        · rintro ⟨draft, ⟨stop, hfold⟩, kind, line, hkind, hline, rfl⟩
          exact ⟨(draft, stop), hfold, kind, hkind, line, hline, rfl⟩
      rw [hread]
      simp only [leads_iff hentries hmembers]
      constructor
      · rintro ⟨⟨_, name, source, _, defaults, overrides⟩,
          ⟨hkind, hname, hsource, hline, hdefaults, hoverrides⟩, kind, line, rfl, rfl, rfl⟩
        exact
          { kind := hkind
            fullName := supplies_getD_iff.1 ⟨name, hname, rfl⟩
            source := supplies_getD_iff.1 ⟨source, hsource, rfl⟩
            line := hline
            defaultAssignments := supplies_getD_iff.1 ⟨defaults, hdefaults, rfl⟩
            overrides := supplies_getD_iff.1 ⟨overrides, hoverrides, rfl⟩ }
      · intro h
        obtain ⟨name, hname, hnameIs⟩ := supplies_getD_iff.2 h.fullName
        obtain ⟨source, hsource, hsourceIs⟩ := supplies_getD_iff.2 h.source
        obtain ⟨defaults, hdefaults, hdefaultsAre⟩ := supplies_getD_iff.2 h.defaultAssignments
        obtain ⟨overrides, hoverrides, hoverridesAre⟩ := supplies_getD_iff.2 h.overrides
        refine ⟨⟨some context.kind, name, source, some context.line, defaults, overrides⟩,
          ⟨h.kind, hname, hsource, h.line, hdefaults, hoverrides⟩,
          context.kind, context.line, rfl, rfl, ?_⟩
        simp only [hnameIs, hsourceIs, hdefaultsAre, hoverridesAre]

/-- The members of an object are those of some context. -/
structure IsContext (members : List (String × Json)) : Prop where
  kind : Sole (valuesUnder ["type"] members) fun value => ∃ kind, Kind.Meaning value kind
  fullName : SoleOr (valuesUnder ["full_name"] members) (fun value => ∃ name, TextOf value name)
    True
  source : SoleOr (valuesUnder ["source"] members) (fun value => ∃ path, TextOf value path) True
  line : Sole (valuesUnder ["line", "declaration_line"] members) fun value =>
    ∃ line, NaturalOf value line
  defaultAssignments : SoleOr (valuesUnder ["default_assignments"] members)
    (fun value => ∃ items, value = .array items ∧
      ∀ item ∈ items, ∃ assignment, Accepted DefaultAssignment.read item assignment) True
  overrides : SoleOr (valuesUnder ["config_overrides"] members)
    (fun value => ∃ entries, value = .object entries ∧
      ∀ e ∈ entries, ∃ entry, Accepted DetectorEntry.read e.2 entry) True

/-- Each member can be chosen on its own. -/
theorem exists_describes_iff : (∃ context, Describes members context) ↔ IsContext members := by
  constructor
  · rintro ⟨context, h⟩
    exact
      { kind := exists_sole_iff.1 ⟨_, h.kind⟩
        fullName := exists_soleOr_iff.1 ⟨_, h.fullName⟩
        source := exists_soleOr_iff.1 ⟨_, h.source⟩
        line := exists_sole_iff.1 ⟨_, h.line⟩
        defaultAssignments := by
          simpa only [exists_arrayOf_iff] using exists_soleOr_iff.1 ⟨_, h.defaultAssignments⟩
        overrides := by
          simpa only [exists_mapOf_iff] using exists_soleOr_iff.1 ⟨_, h.overrides⟩ }
  · intro h
    obtain ⟨kind, hkind⟩ := exists_sole_iff.2 h.kind
    obtain ⟨name, hname⟩ := exists_soleOr_iff.2 h.fullName
    obtain ⟨path, hpath⟩ := exists_soleOr_iff.2 h.source
    obtain ⟨line, hline⟩ := exists_sole_iff.2 h.line
    have hdefaults := h.defaultAssignments
    have hoverrides := h.overrides
    simp only [← exists_arrayOf_iff, ← exists_mapOf_iff] at hdefaults hoverrides
    obtain ⟨defaults, hdefaults⟩ := exists_soleOr_iff.2 hdefaults
    obtain ⟨overrides, hoverrides⟩ := exists_soleOr_iff.2 hoverrides
    exact ⟨⟨kind, name, ⟨path⟩, line, defaults, overrides⟩,
      hkind, hname, hpath, hline, hdefaults, hoverrides⟩

/-- The name that a field is known by; the line has a second one. -/
def fieldName? (name : String) : Option String :=
  if name = "declaration_line" then some "line"
  else if name ∈ ["type", "full_name", "source", "line", "default_assignments",
    "config_overrides"] then some name
  else none

/-- The members that are fields of a context, each under the name that it is known by. -/
def fieldsIn (members : List (String × Json)) : List (String × Json) :=
  members.filterMap fun e => (fieldName? e.1).map fun name => (name, e.2)

theorem valuesUnder_fieldsIn {names : List String} {key : String}
    (h : ∀ name, name ∈ names ↔ fieldName? name = some key) (members : List (String × Json)) :
    valuesUnder names members = valuesUnder [key] (fieldsIn members) := by
  induction members with
  | nil => rfl
  | cons member members ih =>
      obtain ⟨name, value⟩ := member
      have hname := h name
      cases hfound : fieldName? name with
      | none =>
          have hnotMem : name ∉ names := by simp [hname, hfound]
          have hfields : fieldsIn ((name, value) :: members) = fieldsIn members := by
            simp [fieldsIn, hfound]
          rw [valuesUnder_of_notMem hnotMem, hfields, ih]
      | some found =>
          have hfields : fieldsIn ((name, value) :: members) =
              (found, value) :: fieldsIn members := by
            simp [fieldsIn, hfound]
          rw [hfields]
          by_cases hkey : found = key
          · have hmem : name ∈ names := by simp [hname, hfound, hkey]
            rw [valuesUnder_of_mem hmem, valuesUnder_of_mem (by simp [hkey]), ih]
          · have hnotMem : name ∉ names := by simp [hname, hfound, hkey]
            rw [valuesUnder_of_notMem hnotMem, valuesUnder_of_notMem (by simp [hkey]), ih]

theorem valuesUnder_perm (names : List String) (h : other.Perm members) :
    (valuesUnder names other).Perm (valuesUnder names members) :=
  (h.filter _).map _

/-- The order of the fields, the name of the line and other members do not matter. -/
theorem Describes.of_fieldsIn (h : Describes members context)
    (hfields : (fieldsIn other).Perm (fieldsIn members)) : Describes other context := by
  have hperm : ∀ {names : List String} {key : String},
      (∀ name, name ∈ names ↔ fieldName? name = some key) →
      (valuesUnder names other).Perm (valuesUnder names members) := by
    intro names key hnames
    rw [valuesUnder_fieldsIn hnames, valuesUnder_fieldsIn hnames]
    exact valuesUnder_perm [key] hfields
  have hone : ∀ key ∈ ["type", "full_name", "source", "default_assignments",
      "config_overrides"], ∀ name, name ∈ [key] ↔ fieldName? name = some key := by
    intro key hkey name
    grind [fieldName?]
  have hline : ∀ name, name ∈ ["line", "declaration_line"] ↔ fieldName? name = some "line" := by
    intro name
    grind [fieldName?]
  exact
    { kind := h.kind.of_perm (hperm (hone "type" (by simp)))
      fullName := h.fullName.of_perm (hperm (hone "full_name" (by simp)))
      source := h.source.of_perm (hperm (hone "source" (by simp)))
      line := h.line.of_perm (hperm hline)
      defaultAssignments := h.defaultAssignments.of_perm
        (hperm (hone "default_assignments" (by simp)))
      overrides := h.overrides.of_perm (hperm (hone "config_overrides" (by simp))) }

end Objects

section Texts

/-- The contexts of a dump are those that its objects describe, in their order. -/
theorem means_dump (objects : List (List (String × Json))) :
    Means (readList read) (.array (objects.map .object)) (List.Forall₂ Describes objects) := by
  intro room node hnode hreadable contexts
  have hitem : ∀ v ∈ objects.map Json.object, Means read v fun context =>
      ∃ members, v = .object members ∧ Describes members context := by
    intro v hv room node hnode hreadable context
    obtain ⟨members, -, rfl⟩ := List.mem_map.1 hv
    simp [means_read members hnode hreadable]
  rw [means_list hitem hnode hreadable, List.forall₂_map_left_iff]
  simp

/--
An object of a depth that can be read is a context exactly when its fields are such as they
have to be, and then it is the context that they describe.  Objects with the same
fields, in any order, are the same context, whatever other members they have and
whichever name the line has.  The line is written as plain digits, since a natural
number has no other text.  The same holds of each object in a dump.
-/
theorem object_grammar :
    (∀ (members : List (String × Json)) (text : String),
      (Json.object members).HasText text → (Json.object members).nesting ≤ maxDepth →
        ((∃ context, parse read text = .ok context) ↔ IsContext members) ∧
        (∀ context, parse read text = .ok context ↔ Describes members context) ∧
        ∀ (other : List (String × Json)) (otherText : String),
          (Json.object other).HasText otherText → (Json.object other).nesting ≤ maxDepth →
          (fieldsIn other).Perm (fieldsIn members) →
            (parse read otherText).toOption = (parse read text).toOption) ∧
    (∀ (n : Nat) (digits : List Char),
      Writes (.natural n) digits ↔ n < 2 ^ 64 ∧ digits = (toString n).toList) ∧
    (∀ (objects : List (List (String × Json))) (text : String),
      (Json.array (objects.map .object)).HasText text →
      (Json.array (objects.map .object)).nesting ≤ maxDepth →
        ∀ contexts, parseDump text = .ok contexts ↔
          List.Forall₂ Describes objects contexts) := by
  refine ⟨?_, ?_, ?_⟩
  · intro members text htext hnesting
    have hparse := parse_iff (means_read members) htext hnesting
    refine ⟨?_, hparse, ?_⟩
    · simp only [hparse]
      exact exists_describes_iff
    · intro other otherText hother hotherNesting hfields
      have hparseOther := parse_iff (means_read other) hother hotherNesting
      apply Fallible.toOption_eq_of_iff
      intro context
      rw [hparse, hparseOther]
      constructor
      · exact fun h => h.of_fieldsIn hfields.symm
      · exact fun h => h.of_fieldsIn hfields
  · intro n digits
    exact writes_natural_iff
  · intro objects text htext hnesting
    exact parse_iff (means_dump objects) htext hnesting

/-- A method with one default, once with a member that is no field and once without it. -/
theorem object_grammar_of_method :
    let kind := Json.object [("method", .null)]
    let value := Json.object [("type", .text "true")]
    let deep := Json.object [("parameter", .text "deep"), ("value", value)]
    let members := [("declaration_line", .natural 7), ("note", .array [.null]),
      ("default_assignments", .array [deep]), ("type", kind)]
    let other := [("type", kind), ("line", .natural 7), ("default_assignments", .array [deep])]
    let method := (bare .method "" 7).withDefault "deep" .true
    parse read (Json.object members).compact = .ok method ∧
      (parse read (Json.object other).compact).toOption = some method ∧
      parseDump (Json.array [.object members]).compact = .ok [method] := by
  intro kind value deep members other method
  have hline : Writes (.natural 7) (Json.natural 7).render :=
    writes_integer (by decide) (by decide)
  have hkind : Writes kind kind.render := writes_object (by simp [render, scalar, Writes.nullWord])
  have hnote : Writes (.array [.null]) (Json.array [.null]).render :=
    writes_array (by simp [render, scalar, Writes.nullWord])
  have hvalue : Writes value value.render := writes_object (by simp [writes_text])
  have hdeep : Writes deep deep.render := writes_object (by simp [writes_text, hvalue])
  have hdefaults : Writes (.array [deep]) (Json.array [deep]).render :=
    writes_array (by simp [hdeep])
  have hmembers : Writes (.object members) (Json.object members).render :=
    writes_object (by simp [members, hline, hkind, hnote, hdefaults])
  have hother : Writes (.object other) (Json.object other).render :=
    writes_object (by simp [other, hline, hkind, hdefaults])
  have hdump : Writes (.array [.object members]) (Json.array [.object members]).render :=
    writes_array (by simp [hmembers])
  have hmeaning : DefaultAssignment.Meaning deep ⟨"deep", .true⟩ :=
    ⟨⟨_, rfl, rfl⟩, ⟨_, rfl, ⟨_, rfl, "true", rfl, rfl⟩⟩⟩
  have haccepted : Accepted DefaultAssignment.read deep ⟨"deep", .true⟩ :=
    ⟨_, hasText_of_writes hdeep, (parse_iff (DefaultAssignment.readsAs_read deep)
      (hasText_of_writes hdeep) (by decide) _).2 hmeaning⟩
  have hdescribes : Describes members method := by
    constructor
    · exact ⟨kind, rfl, .inr rfl⟩
    · exact .inr ⟨rfl, rfl⟩
    · exact .inr ⟨rfl, rfl⟩
    · exact ⟨_, rfl, rfl⟩
    · exact .inl ⟨_, rfl, [deep], rfl, .cons haccepted .nil⟩
    · exact .inr ⟨rfl, rfl⟩
  have hfields : (fieldsIn other).Perm (fieldsIn members) := by
    exact (List.perm_append_singleton ("type", kind)
      [("line", .natural 7), ("default_assignments", .array [deep])]).symm
  obtain ⟨hobject, -, hobjects⟩ := object_grammar
  obtain ⟨-, hparse, hsame⟩ := hobject members _ (hasText_of_writes hmembers) (by decide)
  have hread := (hparse method).2 hdescribes
  have hagain := hsame other _ (hasText_of_writes hother) (by decide) hfields
  refine ⟨hread, ?_, ?_⟩
  · exact hagain.trans (congrArg Except.toOption hread)
  · exact (hobjects [members] _ (hasText_of_writes hdump) (by decide) [method]).2
      (.cons hdescribes .nil)

end Texts

end CodeSmells.Context
