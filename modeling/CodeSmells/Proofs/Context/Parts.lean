import CodeSmells.Context.Basic
import CodeSmells.Context.Dump
import CodeSmells.Proofs.Json.Fields

/-!
# What the parts of a context mean

Kinds, default expressions, defaults and entries on detectors have several
spellings in JSON: a name or an object, an object or an array of fields.  The
meaning of each is given here on JSON values alone, without a text or a tree.

**Results.**

* `leads_iff`: the members of an object fill the fields of a structure, in any order.
* `Kind.readsAs_read`, `Expression.readsAs_read`, `DetectorEntry.readsAs_read`,
  `DefaultAssignment.readsAs_read`: readers find what a value means, and nothing else.
-/

namespace CodeSmells

open Json Fallible

namespace Kind

theorem ofName?_eq_some_iff {name : String} {kind : Kind} :
    ofName? name = some kind ↔ kind.name = name := by
  constructor
  · intro h
    have hfound := List.find?_some h
    exact beq_iff_eq.1 hfound
  · rintro rfl
    cases kind <;> decide

theorem ofQuotation_eq_ok_iff {quotation : Quotation} {name : String} {kind : Kind}
    (h : quotation.read = .ok name) : ofQuotation quotation = .ok kind ↔ kind.name = name := by
  rw [ofQuotation, h, ok_bind, ← ofName?_eq_some_iff]
  cases ofName? name <;> simp [refuseAt]

/-- A kind as its name, or as an object with nothing but `null` under its name. -/
def Meaning (value : Json) (kind : Kind) : Prop :=
  value = .text kind.name ∨ value = .object [(kind.name, .null)]

theorem readsAs_read : ReadsAs read Meaning := by
  intro value room node hnode hreadable kind
  cases value with
  | text name =>
      cases hnode with
      | text hread => simp [read, ofQuotation_eq_ok_iff hread, Meaning, eq_comm]
  | object members =>
      obtain ⟨inner, rfl, hmembers⟩ := hreadable.members
      cases hnode with
      | object hentries =>
          cases hentries with
          | close => simp [read, enter, refuseAt, Meaning]
          | @entry _ _ _ _ _ name value _ hkey hvalue hmore =>
              have hnothing := readsAs_nothing value hvalue (hmembers (name, value) (by simp))
              simp only [read, enter, bind_eq_ok_iff, ofQuotation_eq_ok_iff hkey, hnothing]
              cases hmore with
              | close => simp [Meaning, and_comm, eq_comm]
              | entry => simp [refuseAt, Meaning]
  | _ =>
      cases hnode
      simp [read, refuseAt, Meaning]

end Kind

namespace Expression

variable {room : Nat}

/-- The tag and the other members after the members of an expression. -/
theorem leads_iff {entries : Entries} {members : List (String × Json)}
    (h : entries.Holds members) (hreadable : ∀ e ∈ members, IsReadable room e.2)
    (draft result : Draft) :
    Leads (field room) entries draft result ↔
      Fills TextOf (valuesUnder ["type"] members) draft.tag result.tag ∧
      result.members = (members.filter fun e => e.1 ≠ "type").reverse ++ draft.members := by
  induction members generalizing entries draft with
  | nil =>
      rw [leads_nil h]
      cases draft
      cases result
      simp
  | cons member members ih =>
      obtain ⟨name, value⟩ := member
      cases h with
      | @entry _ _ node _ _ _ _ _ hkey hnode hmore =>
          have hvalue := hreadable (name, value) (by simp)
          have hrest := fun draft => ih hmore (fun e he => hreadable e (by simp [he])) draft
          by_cases htype : name = "type"
          · subst htype
            have hfield : field room draft "type" = slotRule draft.tag "type"
                (readText .variantName room) fun tag => { draft with tag := some tag } := by
              simp [field, slotRule]
            have hbeside : (("type", value) :: members).filter (fun e => e.1 ≠ "type") =
                members.filter fun e => e.1 ≠ "type" := by
              simp
            simp (disch := decide) only [leads_slot hkey hnode (readsAs_text .variantName value)
              hvalue hfield, hrest, valuesUnder_of_mem, fills_cons, hbeside]
            grind
          · have hfield : field room draft name = .known fun node =>
                (readAny room node).map fun value =>
                  { draft with members := (name, value) :: draft.members } := by
              simp [field, htype]
            simp only [leads_known hkey hfield, map_eq_ok_iff,
              readsAs_any value hnode hvalue, hrest]
            simp [valuesUnder_of_notMem, htype]

/-- An expression as an object with a tag, or as an array that starts with the tag. -/
def Meaning : Json → Expression → Prop
  | .object members, expression => Sole (valuesUnder ["type"] members) fun value =>
      ∃ tag, TextOf value tag ∧
        ofMembers tag (members.filter fun e => e.1 ≠ "type") = .ok expression
  | .array items, expression => ∃ tag values, items = .text tag :: values ∧
      ofItems tag values = .ok expression
  | _, _ => False

theorem readsAs_read : ReadsAs read Meaning := by
  intro value room node hnode hreadable expression
  cases value with
  | object members =>
      obtain ⟨inner, rfl, hmembers⟩ := hreadable.members
      cases hnode with
      | @object start entries _ hentries =>
          have hread : read (inner + 1) (.object start entries) = .ok expression ↔
              ∃ draft, Leads (field inner) entries ⟨none, []⟩ draft ∧
                ∃ tag, draft.tag = some tag ∧
                  ofMembers tag draft.members.reverse = .ok expression := by
            simp only [read, enter, bind_eq_ok_iff, Leads, requireField_eq_ok_iff]
            constructor
            · rintro ⟨⟨tag, met⟩, ⟨⟨draft, stop⟩, hfold, tag', htag, hmet⟩, hexpression⟩
              cases hmet
              exact ⟨draft, ⟨stop, hfold⟩, tag, htag, hexpression⟩
            · rintro ⟨draft, ⟨stop, hfold⟩, tag, htag, hexpression⟩
              exact ⟨(tag, draft.members.reverse), ⟨(draft, stop), hfold, tag, htag, rfl⟩,
                hexpression⟩
          rw [hread, Meaning]
          simp only [leads_iff hentries hmembers]
          constructor
          · rintro ⟨⟨_, met⟩, ⟨htag, hmet⟩, tag, rfl, hexpression⟩
            obtain ⟨value, hvalues, hvalue⟩ := htag
            rw [List.append_nil] at hmet
            subst hmet
            rw [List.reverse_reverse] at hexpression
            exact ⟨value, hvalues, tag, hvalue, hexpression⟩
          · rintro ⟨value, hvalues, tag, hvalue, hexpression⟩
            refine ⟨⟨some tag, _⟩, ⟨⟨value, hvalues, hvalue⟩, rfl⟩, tag, rfl, ?_⟩
            rw [List.append_nil, List.reverse_reverse]
            exact hexpression
  | array items =>
      obtain ⟨inner, rfl, hitems⟩ := hreadable.items
      cases hnode with
      | array hfound =>
          cases hfound with
          | close => simp [read, enter, refuseAt, bind_eq_ok_iff, Meaning]
          | @item node _ more value values hvalue hmore =>
              have htag := readsAs_text .variantName value hvalue (hitems value (by simp))
              have hvalues := readAll_iff hmore fun v hv node hnode =>
                readsAs_any v hnode (hitems v (by simp [hv]))
              simp [read, enter, bind_eq_ok_iff, htag, hvalues, Meaning, TextOf]
  | _ =>
      cases hnode
      simp [read, not_refuse, Meaning]

end Expression

namespace DetectorEntry

variable {room : Nat}

/-- The fields of an entry. -/
def layout : Layout Draft where
  slots :=
    [⟨_, ["enabled"], "enabled", Draft.enabled, fun x draft => { draft with enabled := some x },
      fun _ _ => rfl, _, _, readsAs_optionalBool⟩,
     ⟨_, ["exclude"], "exclude", Draft.exclude, fun x draft => { draft with exclude := some x },
      fun _ _ => rfl, _, _, readsAs_list (readsAs_text .string)⟩]
  apart := by simp [Slot.Apart]
  ext := by
    rintro ⟨_, _⟩ ⟨_, _⟩ h
    simpa using h

theorem field_eq_rule (room : Nat) : field room = layout.rule room := by
  funext draft name
  by_cases henabled : name = "enabled"
  · simp [field, Layout.rule, layout, slotRule, henabled]
  by_cases hexclude : name = "exclude"
  · simp [field, Layout.rule, layout, slotRule, hexclude]
  · simp [field, Layout.rule, layout, henabled, hexclude]

theorem leads_iff {entries : Entries} {members : List (String × Json)}
    (h : entries.Holds members) (hreadable : ∀ e ∈ members, IsReadable room e.2)
    (draft result : Draft) :
    Leads (field room) entries draft result ↔
      Fills OptionalBool (valuesUnder ["enabled"] members) draft.enabled result.enabled ∧
      Fills (ArrayOf TextOf) (valuesUnder ["exclude"] members) draft.exclude result.exclude := by
  rw [field_eq_rule, layout.leads_iff h hreadable]
  simp [layout, Slot.Filled]

/-- The values of the two fields say what the entry says. -/
def Gives (enabled exclude : List Json) (entry : DetectorEntry) : Prop :=
  SoleOr enabled (OptionalBool · entry.enabled) (entry.enabled = none) ∧
    SoleOr exclude (ArrayOf TextOf · entry.exclude) (entry.exclude = [])

/-- An entry as an object or as an array of its fields; each field may be left out. -/
def Meaning : Json → DetectorEntry → Prop
  | .object members, entry =>
      Gives (valuesUnder ["enabled"] members) (valuesUnder ["exclude"] members) entry
  | .array items, entry => Gives (items.take 1) (items.tail.take 1) entry ∧ items.tail.tail = []
  | _, _ => False

theorem gives_iff {enabled exclude : List Json} {entry : DetectorEntry} :
    Gives enabled exclude entry ↔ ∃ given patterns,
      Supplies OptionalBool enabled given ∧
      Supplies (ArrayOf TextOf) exclude patterns ∧
      ⟨given.getD none, patterns.getD []⟩ = entry := by
  constructor
  · rintro ⟨henabled, hexclude⟩
    obtain ⟨given, hgiven, hon⟩ := supplies_getD_iff.2 henabled
    obtain ⟨patterns, hpatterns, hnames⟩ := supplies_getD_iff.2 hexclude
    exact ⟨given, patterns, hgiven, hpatterns, by rw [hon, hnames]⟩
  · rintro ⟨given, patterns, hgiven, hpatterns, rfl⟩
    exact ⟨supplies_getD_iff.1 ⟨given, hgiven, rfl⟩,
      supplies_getD_iff.1 ⟨patterns, hpatterns, rfl⟩⟩

theorem readsAs_read : ReadsAs read Meaning := by
  intro value room node hnode hreadable entry
  cases value with
  | object members =>
      obtain ⟨inner, rfl, hmembers⟩ := hreadable.members
      cases hnode with
      | @object start entries _ hentries =>
          have hread : read (inner + 1) (.object start entries) = .ok entry ↔
              ∃ draft, Leads (field inner) entries ⟨none, none⟩ draft ∧
                ⟨draft.enabled.getD none, draft.exclude.getD []⟩ = entry := by
            simp [read, enter, bind_eq_ok_iff, Leads]
          rw [hread, Meaning, gives_iff]
          simp only [leads_iff hentries hmembers]
          constructor
          · rintro ⟨draft, ⟨henabled, hexclude⟩, rfl⟩
            exact ⟨_, _, henabled, hexclude, rfl⟩
          · rintro ⟨given, patterns, henabled, hexclude, rfl⟩
            exact ⟨⟨given, patterns⟩, ⟨henabled, hexclude⟩, rfl⟩
  | array items =>
      obtain ⟨inner, rfl, hitems⟩ := hreadable.items
      cases hnode with
      | @array start found _ hfound =>
          obtain ⟨second, hsecond, henabled⟩ := next_iff readsAs_optionalBool hfound hitems
          obtain ⟨rest, hrest, hexclude⟩ := next_iff (readsAs_list (readsAs_text .string))
            hsecond fun v hv => hitems v (List.mem_of_mem_tail hv)
          have hfinish := finish_iff hrest
          rw [Meaning, gives_iff]
          simp only [read, enter, bind_eq_ok_iff, Prod.exists, henabled]
          constructor
          · rintro ⟨given, _, ⟨hgiven, rfl⟩, patterns, _, hnext, _, hend, hentry⟩
            obtain ⟨hpatterns, rfl⟩ := (hexclude _ _).1 hnext
            exact ⟨⟨given, patterns, hgiven, hpatterns, Except.ok.inj hentry⟩, hfinish.1 hend⟩
          · rintro ⟨⟨given, patterns, hgiven, hpatterns, rfl⟩, hnone⟩
            exact ⟨given, second, ⟨hgiven, rfl⟩, patterns, rest,
              (hexclude _ _).2 ⟨hpatterns, rfl⟩, (), hfinish.2 hnone, rfl⟩
  | _ =>
      cases hnode
      simp [read, not_refuse, Meaning]

end DetectorEntry

namespace DefaultAssignment

variable {room : Nat}

/-- The fields of a default. -/
def layout : Layout Draft where
  slots :=
    [⟨_, ["parameter"], "parameter", Draft.parameter,
      fun x draft => { draft with parameter := some x }, fun _ _ => rfl, _, _,
      readsAs_text .string⟩,
     ⟨_, ["value"], "value", Draft.value, fun x draft => { draft with value := some x },
      fun _ _ => rfl, _, _, Expression.readsAs_read⟩]
  apart := by simp [Slot.Apart]
  ext := by
    rintro ⟨_, _⟩ ⟨_, _⟩ h
    simpa using h

theorem field_eq_rule (room : Nat) : field room = layout.rule room := by
  funext draft name
  by_cases hparameter : name = "parameter"
  · simp [field, Layout.rule, layout, slotRule, hparameter]
  by_cases hvalue : name = "value"
  · simp [field, Layout.rule, layout, slotRule, hvalue]
  · simp [field, Layout.rule, layout, hparameter, hvalue]

theorem leads_iff {entries : Entries} {members : List (String × Json)}
    (h : entries.Holds members) (hreadable : ∀ e ∈ members, IsReadable room e.2)
    (draft result : Draft) :
    Leads (field room) entries draft result ↔
      Fills TextOf (valuesUnder ["parameter"] members) draft.parameter result.parameter ∧
      Fills Expression.Meaning (valuesUnder ["value"] members) draft.value result.value := by
  rw [field_eq_rule, layout.leads_iff h hreadable]
  simp [layout, Slot.Filled]

/-- The values of the two fields say what the default says. -/
def Gives (parameter value : List Json) (assignment : DefaultAssignment) : Prop :=
  Sole parameter (TextOf · assignment.parameter) ∧
    Sole value (Expression.Meaning · assignment.value)

/-- A default as an object or as an array of its two fields. -/
def Meaning : Json → DefaultAssignment → Prop
  | .object members, assignment =>
      Gives (valuesUnder ["parameter"] members) (valuesUnder ["value"] members) assignment
  | .array items, assignment =>
      Gives (items.take 1) (items.tail.take 1) assignment ∧ items.tail.tail = []
  | _, _ => False

theorem readsAs_read : ReadsAs read Meaning := by
  intro value room node hnode hreadable assignment
  cases value with
  | object members =>
      obtain ⟨inner, rfl, hmembers⟩ := hreadable.members
      cases hnode with
      | @object start entries _ hentries =>
          have hread : read (inner + 1) (.object start entries) = .ok assignment ↔
              Leads (field inner) entries ⟨none, none⟩
                ⟨some assignment.parameter, some assignment.value⟩ := by
            simp only [read, enter, bind_eq_ok_iff, Leads, requireField_eq_ok_iff]
            constructor
            · rintro ⟨⟨⟨_, _⟩, stop⟩, hfold, parameter, rfl, value, rfl, hassignment⟩
              cases hassignment
              exact ⟨stop, hfold⟩
            · rintro ⟨stop, hfold⟩
              exact ⟨_, hfold, _, rfl, _, rfl, rfl⟩
          rw [hread, leads_iff hentries hmembers]
          rfl
  | array items =>
      obtain ⟨inner, rfl, hitems⟩ := hreadable.items
      cases hnode with
      | @array start found _ hfound =>
          obtain ⟨second, hsecond, hparameter⟩ :=
            required_iff (readsAs_text .string) hfound hitems
          obtain ⟨rest, hrest, hvalue⟩ := required_iff Expression.readsAs_read hsecond
            fun v hv => hitems v (List.mem_of_mem_tail hv)
          have hfinish := finish_iff hrest
          simp only [read, enter, bind_eq_ok_iff, Prod.exists, hparameter]
          constructor
          · rintro ⟨parameter, _, ⟨hgiven, rfl⟩, value, _, hnext, _, hend, hassignment⟩
            obtain ⟨hsole, rfl⟩ := (hvalue _ _ _ _).1 hnext
            cases hassignment
            exact ⟨⟨hgiven, hsole⟩, hfinish.1 hend⟩
          · rintro ⟨⟨hgiven, hsole⟩, hnone⟩
            exact ⟨_, second, ⟨hgiven, rfl⟩, _, rest,
              (hvalue _ _ _ _).2 ⟨hsole, rfl⟩, (), hfinish.2 hnone, rfl⟩
  | _ =>
      cases hnode
      simp [read, not_refuse, Meaning]

end DefaultAssignment

end CodeSmells
