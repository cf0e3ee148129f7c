import CodeSmells.Proofs.Context.Grammar
import CodeSmells.Proofs.Json.Records

/-!
# What the parts of a context are read to

The reader of each part of a context is steady: what it finds hangs on what is
written and on nothing else.  Defaults, entries on detectors and contexts are
records, so that their fields may be given by name or by position.

**Results.**

* `Kind.steady_read`, `Expression.steady_read`: parts that are no records.
* `Expression.result_object`, `Expression.result_array`: the two notations of an expression.
* `DetectorEntry.record`, `DefaultAssignment.record`, `Context.record`: the records.
-/

namespace CodeSmells

open Json Fallible

variable {room other : Nat} {node : Node} {items : List Spelling}
  {members : List (List Piece × Spelling)}

namespace Kind

theorem toOption_ofQuotation (start stop : Nat) (pieces : List Piece) :
    (ofQuotation ⟨start, pieces, .ok stop⟩).toOption = (textOf? pieces).bind ofName? := by
  rw [ofQuotation, toOption_bind, toOption_read_quotation]
  refine Option.bind_congr fun name _ => ?_
  cases ofName? name <;> rfl

/-- An object is a kind if `null` alone stands under the name. -/
theorem toOption_object (hnode : node.Shows (.object members))
    (hfits : (Spelling.object members).Fits room other) :
    (read room node).toOption = (inner? other).bind fun other =>
      match members with
      | [(key, value)] => ((textOf? key).bind ofName?).bind fun kind =>
          (value.result readNothing other).map fun _ => kind
      | _ => none := by
  cases hnode with
  | object hfound =>
      rw [read, toOption_enter]
      rcases hfits.members with ⟨hroom, hother⟩ | ⟨left, left', hleft, hleft', hmembers⟩
      · rw [hroom, hother]
        rfl
      · rw [hleft, hleft', Option.bind_some, Option.bind_some]
        cases hfound with
        | done => rfl
        | @entry start stop _ _ key node more _ value _ hvalue hmore =>
            simp only [toOption_bind, toOption_ofQuotation,
              steady_nothing.toOption_eq hvalue (hmembers (key, value) List.mem_cons_self)]
            cases hmore with
            | done =>
                refine Option.bind_congr fun kind _ => ?_
                cases value.result readNothing left' <;> rfl
            | entry =>
                simp [refuseAt, Except.toOption]

theorem steady_read : Steady read := by
  constructor
  intro node spelling room other hnode hfits
  cases spelling with
  | object members =>
      rw [toOption_object hnode hfits, Spelling.result,
        toOption_object (Spelling.shows_node _) Spelling.fits_self]
  | text pieces =>
      cases hnode
      simp only [Spelling.result, Spelling.node, Spelling.quotation, read, toOption_ofQuotation]
  | _ =>
      cases hnode
      rfl

end Kind

namespace Expression

/-- What an expression does with a member does not hang on the tree of its value. -/
theorem alike_field {value : Spelling} (hfits : value.Fits room other) (draft : Draft)
    (name : String) :
    FieldRule.Alike value (field room draft name) (field other draft name) := by
  rw [field, field]
  split
  next =>
    split
    next => exact .repeated
    next =>
      refine .known fun node hnode => ?_
      rw [toOption_map, toOption_map, (steady_text .variantName).toOption_eq hnode hfits,
        Spelling.result]
  next =>
    refine .known fun node hnode => ?_
    rw [toOption_map, toOption_map, steady_any.toOption_eq hnode hfits, Spelling.result]

/-- An object is read member by member, and then the payload of its tag is taken. -/
theorem toOption_object (hnode : node.Shows (.object members))
    (hfits : (Spelling.object members).Fits room other) :
    (read room node).toOption = (inner? other).bind fun other =>
      (members.foldlM (takeMember (field other)) ⟨none, []⟩).bind fun draft =>
        draft.tag.bind fun tag => (ofMembers tag draft.members.reverse).toOption := by
  cases hnode with
  | @object start stop found _ hfound =>
      rw [read, toOption_bind, toOption_enter]
      rcases hfits.members with ⟨hroom, hother⟩ | ⟨left, left', hleft, hleft', hmembers⟩
      · rw [hroom, hother]
        rfl
      · rw [hleft, hleft', Option.bind_some, Option.bind_some, ← toOption_fold _ hfound
          fun member hmember => alike_field (hmembers member hmember)]
        simp only [toOption_bind, toOption_requireField]
        cases (found.fold (field left) ⟨none, []⟩).toOption with
        | none => rfl
        | some result =>
            obtain ⟨draft, stop⟩ := result
            cases htag : draft.tag with
            | none => simp [htag]
            | some tag => simp [htag]; rfl

/-- An array is a tag and what follows it. -/
theorem toOption_array (hnode : node.Shows (.array items))
    (hfits : (Spelling.array items).Fits room other) :
    (read room node).toOption = (inner? other).bind fun other =>
      match items with
      | [] => none
      | tag :: rest => (tag.result (readText .variantName) other).bind fun tag =>
          (rest.mapM (Spelling.result readAny other)).bind fun values =>
            (ofItems tag values).toOption := by
  cases hnode with
  | array hfound =>
      rw [read, toOption_bind, toOption_enter]
      rcases hfits.items with ⟨hroom, hother⟩ | ⟨left, left', hleft, hleft', hitems⟩
      · rw [hroom, hother]
        rfl
      · rw [hleft, hleft', Option.bind_some, Option.bind_some]
        cases hfound with
        | done => rfl
        | @item node after more _ tag rest htag hmore =>
            have hrest := toOption_readAll hmore fun item hitem node hnode =>
              steady_any.toOption_eq hnode (hitems item (List.mem_cons_of_mem tag hitem))
            simp only [toOption_bind, hrest,
              (steady_text .variantName).toOption_eq htag (hitems tag List.mem_cons_self)]
            cases tag.result (readText .variantName) left' with
            | none => rfl
            | some tag =>
                cases rest.mapM (Spelling.result readAny left') <;> rfl

theorem result_object : (Spelling.object members).result read room =
    (inner? room).bind fun room =>
      (members.foldlM (takeMember (field room)) ⟨none, []⟩).bind fun draft =>
        draft.tag.bind fun tag => (ofMembers tag draft.members.reverse).toOption :=
  toOption_object (Spelling.shows_node _) Spelling.fits_self

theorem result_array : (Spelling.array items).result read room =
    (inner? room).bind fun room =>
      match items with
      | [] => none
      | tag :: rest => (tag.result (readText .variantName) room).bind fun tag =>
          (rest.mapM (Spelling.result readAny room)).bind fun values =>
            (ofItems tag values).toOption :=
  toOption_array (Spelling.shows_node _) Spelling.fits_self

theorem steady_read : Steady read := by
  constructor
  intro node spelling room other hnode hfits
  cases spelling with
  | object members => rw [toOption_object hnode hfits, result_object]
  | array items => rw [toOption_array hnode hfits, result_array]
  | _ =>
      cases hnode
      simp [read, toOption_refuse, Spelling.result, Spelling.node]

end Expression

namespace DetectorEntry

variable {start stop : Nat} {found : Items}

theorem isSteady_layout : layout.IsSteady := by
  simp only [Layout.IsSteady, layout, List.forall_mem_cons]
  exact ⟨steady_optionalBool, (steady_text .string).list, List.forall_mem_nil _⟩

theorem get_blank : ∀ slot ∈ layout.slots, slot.get ⟨none, none⟩ = none := by
  simp [layout]

/-- The entry that a draft gives; each field may be left out. -/
def ofDraft (draft : Draft) : Option DetectorEntry :=
  some ⟨draft.enabled.getD none, draft.exclude.getD []⟩

theorem toOption_read_object (room start : Nat) (found : Entries) :
    (read room (.object start found)).toOption = (inner? room).bind fun room =>
      ((found.fold (layout.rule room) ⟨none, none⟩).toOption.map Prod.fst).bind ofDraft := by
  rw [read, toOption_enter]
  refine Option.bind_congr fun room _ => ?_
  rw [toOption_bind, field_eq_rule]
  cases (found.fold (layout.rule room) ⟨none, none⟩).toOption <;> rfl

theorem fill_layout (hfound : found.Shows items (.close stop))
    (hitems : ∀ item ∈ items, item.Fits room other) :
    (Layout.fill other layout.slots items ⟨none, none⟩).bind ofDraft =
      (read (room + 1) (.array start found)).toOption := by
  refine Layout.fill_next hfound hitems steady_optionalBool rfl ?_
  intro enabled more rest hmore hrest
  refine Layout.fill_next hmore hrest (steady_text .string).list rfl ?_
  intro exclude more rest hmore hrest
  exact Layout.fill_finish hmore rfl

theorem toOption_read_scalar {spelling : Spelling} (hnode : node.Shows spelling)
    (hnesting : spelling.nesting = 0) : (read room node).toOption = none := by
  cases hnode <;> simp [read, toOption_refuse, Spelling.nesting] at *

/-- An entry on a detector is a record. -/
def record : Record read where
  σ := Draft
  layout := layout
  steady := isSteady_layout
  blank := ⟨none, none⟩
  empty := get_blank
  finish := ofDraft
  object := toOption_read_object
  full _ _ := rfl
  array := fill_layout
  scalar := toOption_read_scalar

end DetectorEntry

namespace DefaultAssignment

variable {start stop : Nat} {found : Items}

theorem isSteady_layout : layout.IsSteady := by
  simp only [Layout.IsSteady, layout, List.forall_mem_cons]
  exact ⟨steady_text .string, Expression.steady_read, List.forall_mem_nil _⟩

theorem get_blank : ∀ slot ∈ layout.slots, slot.get ⟨none, none⟩ = none := by
  simp [layout]

/-- The default that a draft gives; it needs both of its fields. -/
def ofDraft (draft : Draft) : Option DefaultAssignment :=
  draft.parameter.bind fun parameter => draft.value.map fun value => ⟨parameter, value⟩

theorem ofDraft_eq_none {draft : Draft} (h : draft.value = none) : ofDraft draft = none := by
  simp [ofDraft, h]

theorem toOption_read_object (room start : Nat) (found : Entries) :
    (read room (.object start found)).toOption = (inner? room).bind fun room =>
      ((found.fold (layout.rule room) ⟨none, none⟩).toOption.map Prod.fst).bind ofDraft := by
  rw [read, toOption_enter]
  refine Option.bind_congr fun room _ => ?_
  rw [toOption_bind, field_eq_rule, Option.bind_map]
  refine Option.bind_congr fun result _ => ?_
  obtain ⟨⟨parameter, value⟩, stop⟩ := result
  cases parameter <;> cases value <;> rfl

theorem fill_layout (hfound : found.Shows items (.close stop))
    (hitems : ∀ item ∈ items, item.Fits room other) :
    (Layout.fill other layout.slots items ⟨none, none⟩).bind ofDraft =
      (read (room + 1) (.array start found)).toOption := by
  refine Layout.fill_required hfound hitems (steady_text .string) rfl ?_
  intro parameter more rest hmore hrest
  refine Layout.fill_required hmore hrest Expression.steady_read rfl ?_
  intro value more rest hmore hrest
  exact Layout.fill_finish hmore rfl

theorem toOption_read_scalar {spelling : Spelling} (hnode : node.Shows spelling)
    (hnesting : spelling.nesting = 0) : (read room node).toOption = none := by
  cases hnode <;> simp [read, toOption_refuse, Spelling.nesting] at *

/-- A default is a record. -/
def record : Record read where
  σ := Draft
  layout := layout
  steady := isSteady_layout
  blank := ⟨none, none⟩
  empty := get_blank
  finish := ofDraft
  object := toOption_read_object
  full _ _ := rfl
  array := fill_layout
  scalar := toOption_read_scalar

end DefaultAssignment

namespace Context

variable {start stop : Nat} {found : Items}

theorem isSteady_layout : layout.IsSteady := by
  simp only [Layout.IsSteady, layout, List.forall_mem_cons]
  exact ⟨Kind.steady_read, steady_text .string, steady_text .path, steady_natural,
    DefaultAssignment.record.steady_read.list, DetectorEntry.record.steady_read.map,
    List.forall_mem_nil _⟩

theorem get_blank :
    ∀ slot ∈ layout.slots, slot.get ⟨none, none, none, none, none, none⟩ = none := by
  simp [layout]

/-- The context that a draft gives; it needs a kind and a line. -/
def ofDraft (draft : Draft) : Option Context :=
  draft.kind.bind fun kind => draft.line.map fun line =>
    ⟨kind, draft.fullName.getD "", ⟨draft.source.getD ""⟩, line,
      draft.defaultAssignments.getD [], draft.overrides.getD NameMap.empty⟩

theorem ofDraft_eq_none {draft : Draft} (h : draft.line = none) : ofDraft draft = none := by
  simp [ofDraft, h]

theorem toOption_read_object (room start : Nat) (found : Entries) :
    (read room (.object start found)).toOption = (inner? room).bind fun room =>
      ((found.fold (layout.rule room) ⟨none, none, none, none, none, none⟩).toOption.map
        Prod.fst).bind ofDraft := by
  rw [read, toOption_enter]
  refine Option.bind_congr fun room _ => ?_
  rw [toOption_bind, field_eq_rule, Option.bind_map]
  refine Option.bind_congr fun result _ => ?_
  obtain ⟨⟨kind, fullName, source, line, defaults, overrides⟩, stop⟩ := result
  cases kind <;> cases line <;> rfl

theorem fill_layout (hfound : found.Shows items (.close stop))
    (hitems : ∀ item ∈ items, item.Fits room other) :
    (Layout.fill other layout.slots items ⟨none, none, none, none, none, none⟩).bind ofDraft =
      (read (room + 1) (.array start found)).toOption := by
  refine Layout.fill_required hfound hitems Kind.steady_read rfl ?_
  intro kind more rest hmore hrest
  refine Layout.fill_next hmore hrest (steady_text .string) rfl ?_
  intro fullName more rest hmore hrest
  refine Layout.fill_next hmore hrest (steady_text .path) rfl ?_
  intro source more rest hmore hrest
  refine Layout.fill_required hmore hrest steady_natural rfl ?_
  intro line more rest hmore hrest
  refine Layout.fill_next hmore hrest DefaultAssignment.record.steady_read.list rfl ?_
  intro defaults more rest hmore hrest
  refine Layout.fill_next hmore hrest DetectorEntry.record.steady_read.map rfl ?_
  intro overrides more rest hmore hrest
  exact Layout.fill_finish hmore rfl

theorem toOption_read_scalar {spelling : Spelling} (hnode : node.Shows spelling)
    (hnesting : spelling.nesting = 0) : (read room node).toOption = none := by
  cases hnode <;> simp [read, toOption_refuse, Spelling.nesting] at *

/-- A context is a record. -/
def record : Record read where
  σ := Draft
  layout := layout
  steady := isSteady_layout
  blank := ⟨none, none, none, none, none, none⟩
  empty := get_blank
  finish := ofDraft
  object := toOption_read_object
  full _ _ := rfl
  array := fill_layout
  scalar := toOption_read_scalar

end Context

end CodeSmells
