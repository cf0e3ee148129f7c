import CodeSmells.Proofs.Json.Steadiness

/-!
# Structures by name and by position

A structure is read from an object by the names of its fields, or from an array by
their order.  Both ways fill the slots of one draft, and what the draft gives in the
end is the same in both.

**Results.**

* `foldlM_perm`: the order of steps that can be exchanged does not matter.
* `Layout.foldlM_perm_members`: the order of the members does not matter.
* `Layout.fill_eq_foldlM`: slots are filled in order as they are filled by name.
* `Record.steady_read`, `Record.result_object`, `Record.result_array`: what the reader of a
  structure makes of objects and arrays.
-/

namespace CodeSmells.Json

open Fallible

variable {α σ : Type}

/-- Steps that can be exchanged may be taken in any order. -/
theorem foldlM_perm {β : Type} {step : σ → β → Option σ}
    (hcomm : ∀ draft a b, ((step draft a).bind fun next => step next b) =
      (step draft b).bind fun next => step next a)
    {items others : List β} (h : items.Perm others) (draft : σ) :
    items.foldlM step draft = others.foldlM step draft := by
  induction h generalizing draft with
  | nil => rfl
  | cons a _ ih =>
      rw [List.foldlM_cons, List.foldlM_cons]
      exact bind_congr ih
  | swap a b rest =>
      simp only [List.foldlM_cons, ← bind_assoc]
      exact congrArg (· >>= rest.foldlM step) (hcomm draft b a)
  | trans _ _ ih ih' => exact (ih draft).trans (ih' draft)

namespace Slot

/-- Put the value of a member into a slot that is empty. -/
def take (slot : Slot σ) (room : Nat) (draft : σ) (value : Spelling) : Option σ :=
  if (slot.get draft).isSome then none
  else (value.result slot.read room).map fun x => slot.set x draft

end Slot

namespace Layout

variable (layout : Layout σ) {room other : Nat}

/-- The readers of all slots are steady. -/
def IsSteady : Prop :=
  ∀ slot ∈ layout.slots, Steady slot.read

/-- What a structure does with a member does not hang on the tree of its value. -/
theorem alike_rule (h : layout.IsSteady) {value : Spelling} (hfits : value.Fits room other)
    (draft : σ) (name : String) :
    FieldRule.Alike value (layout.rule room draft name) (layout.rule other draft name) := by
  rw [rule, rule]
  cases hfind : layout.slots.find? fun slot => slot.names.contains name with
  | none => exact .unknown
  | some slot =>
      simp only [slotRule]
      split
      next => exact .repeated
      next =>
        refine .known fun node hnode => ?_
        have hread := h slot (List.mem_of_find?_eq_some hfind)
        rw [toOption_map, toOption_map, hread.toOption_eq hnode hfits, Spelling.result]

/-- A member goes into the slot that has its name, if there is one. -/
theorem takeMember_rule (draft : σ) (member : List Piece × Spelling) :
    takeMember (layout.rule room) draft member = (textOf? member.1).bind fun name =>
      match layout.slots.find? fun slot => slot.names.contains name with
      | none => some draft
      | some slot => slot.take room draft member.2 := by
  refine Option.bind_congr fun name _ => ?_
  rw [rule]
  cases layout.slots.find? fun slot => slot.names.contains name with
  | none => rfl
  | some slot =>
      simp only [slotRule, Slot.take]
      split
      next => rfl
      next => exact toOption_map _ _

/-- A name belongs to one slot only. -/
theorem find?_of_mem {slot : Slot σ} {name : String} (hslot : slot ∈ layout.slots)
    (hname : name ∈ slot.names) :
    (layout.slots.find? fun slot => slot.names.contains name) = some slot := by
  cases hfind : layout.slots.find? fun slot => slot.names.contains name with
  | none =>
      have hnone := List.find?_eq_none.1 hfind slot hslot
      simp [hname] at hnone
  | some found =>
      have hfound : name ∈ found.names := by simpa using List.find?_some hfind
      rcases layout.eq_or_apart (List.mem_of_find?_eq_some hfind) hslot with rfl | hapart
      · rfl
      · exact absurd hfound (hapart.1 name hname)

/-- Values may be put into slots in either order. -/
theorem set_comm {slot next : Slot σ} (hslot : slot ∈ layout.slots) (hnext : next ∈ layout.slots)
    (hapart : slot.Apart next) (hapart' : next.Apart slot) (x : slot.α) (y : next.α) (draft : σ) :
    next.set y (slot.set x draft) = slot.set x (next.set y draft) := by
  refine layout.ext _ _ fun third hthird => ?_
  rcases layout.eq_or_apart hthird hslot with rfl | hslot'
  · rw [hapart.2, third.get_set, third.get_set]
  · rcases layout.eq_or_apart hthird hnext with rfl | hnext'
    · rw [hslot'.2, third.get_set, third.get_set]
    · rw [hslot'.2, hnext'.2, hnext'.2, hslot'.2]

/-- Of two members for one slot the second one is too many. -/
theorem take_take_self (slot : Slot σ) (draft : σ) (value value' : Spelling) :
    ((slot.take room draft value).bind fun next => slot.take room next value') = none := by
  rw [Option.bind_eq_none_iff]
  intro next hnext
  rw [Slot.take] at hnext
  split at hnext
  next => cases hnext
  next =>
    obtain ⟨x, -, rfl⟩ := Option.map_eq_some_iff.1 hnext
    rw [Slot.take, slot.get_set, if_pos Option.isSome_some]

/-- Members may be taken into slots in either order. -/
theorem take_comm {slot next : Slot σ} (hslot : slot ∈ layout.slots) (hnext : next ∈ layout.slots)
    (draft : σ) (value value' : Spelling) :
    ((slot.take room draft value).bind fun draft => next.take room draft value') =
      (next.take room draft value').bind fun draft => slot.take room draft value := by
  rcases layout.eq_or_apart hslot hnext with rfl | hapart
  · rw [take_take_self, take_take_self]
  rcases layout.eq_or_apart hnext hslot with rfl | hapart'
  · rw [take_take_self, take_take_self]
  simp only [Slot.take]
  cases value.result slot.read room with
  | none => cases value'.result next.read room <;> simp
  | some x =>
      cases value'.result next.read room with
      | none => simp
      | some y =>
          cases hold : slot.get draft <;> cases hold' : next.get draft <;>
            simp [hold, hold', hapart.2, hapart'.2, layout.set_comm hslot hnext hapart hapart']

/-- Members may be taken in either order. -/
theorem takeMember_comm (draft : σ) (a b : List Piece × Spelling) :
    ((takeMember (layout.rule room) draft a).bind fun next =>
      takeMember (layout.rule room) next b) =
      (takeMember (layout.rule room) draft b).bind fun next =>
        takeMember (layout.rule room) next a := by
  simp only [takeMember_rule]
  cases textOf? a.1 with
  | none => cases textOf? b.1 <;> simp
  | some name =>
      cases textOf? b.1 with
      | none => simp
      | some name' =>
          simp only [Option.bind_some]
          cases hfind : layout.slots.find? fun slot => slot.names.contains name with
          | none => simp
          | some slot =>
              cases hfind' : layout.slots.find? fun slot => slot.names.contains name' with
              | none => simp
              | some next =>
                  exact layout.take_comm (List.mem_of_find?_eq_some hfind)
                    (List.mem_of_find?_eq_some hfind') draft a.2 b.2

/-- The order of the members does not matter. -/
theorem foldlM_perm_members {members others : List (List Piece × Spelling)}
    (h : members.Perm others) (draft : σ) :
    members.foldlM (takeMember (layout.rule room)) draft =
      others.foldlM (takeMember (layout.rule room)) draft :=
  foldlM_perm layout.takeMember_comm h draft

/-- Put values into slots in their order; there are not more values than slots. -/
def fill (room : Nat) : List (Slot σ) → List Spelling → σ → Option σ
  | _, [], draft => some draft
  | [], _ :: _, _ => none
  | slot :: slots, item :: items, draft =>
      (item.result slot.read room).bind fun x => fill room slots items (slot.set x draft)

theorem fill_eq_none {slots : List (Slot σ)} {items : List Spelling} (draft : σ)
    (h : slots.length < items.length) : fill room slots items draft = none := by
  induction slots generalizing items draft with
  | nil =>
      cases items with
      | nil => cases h
      | cons item items => rfl
  | cons slot slots ih =>
      cases items with
      | nil => cases h
      | cons item items =>
          rw [fill, Option.bind_eq_none_iff]
          exact fun x _ => ih _ (Nat.lt_of_succ_lt_succ h)

/-- A slot keeps what it has if there are values for other slots only. -/
theorem get_of_fill {slot : Slot σ} {slots : List (Slot σ)} {items : List Spelling}
    {draft next : σ} (h : fill room slots items draft = some next)
    (hapart : ∀ filled ∈ slots.take items.length, slot.Apart filled) :
    slot.get next = slot.get draft := by
  induction slots generalizing items draft with
  | nil =>
      cases items with
      | nil =>
          cases h
          rfl
      | cons => cases h
  | cons first slots ih =>
      cases items with
      | nil =>
          cases h
          rfl
      | cons item items =>
          rw [List.length_cons, List.take_succ_cons, List.forall_mem_cons] at hapart
          obtain ⟨x, -, hrest⟩ := Option.bind_eq_some_iff.1 h
          rw [ih hrest hapart.2, hapart.1.2]

/-- The first slots in order, each with a value and a member with a name and the same result. -/
inductive Named (room : Nat) : List (Slot σ) → List Spelling → List (List Piece × Spelling) → Prop
  | omitted {slots : List (Slot σ)} : Named room slots [] []
  | slot {slot : Slot σ} {slots : List (Slot σ)} {key : List Piece} {name : String}
      {item value : Spelling} {items : List Spelling} {members : List (List Piece × Spelling)} :
      textOf? key = some name → name ∈ slot.names →
      item.result slot.read room = value.result slot.read room → Named room slots items members →
      Named room (slot :: slots) (item :: items) ((key, value) :: members)

/-- Slots are filled in order as they are filled by name. -/
theorem fill_eq_foldlM {slots : List (Slot σ)} {items : List Spelling}
    {members : List (List Piece × Spelling)} (h : Named room slots items members) (draft : σ)
    (hslots : ∀ slot ∈ slots, slot ∈ layout.slots)
    (hapart : slots.Pairwise fun slot other => other.Apart slot)
    (hempty : ∀ slot ∈ slots, slot.get draft = none) :
    fill room slots items draft = members.foldlM (takeMember (layout.rule room)) draft := by
  induction h generalizing draft with
  | omitted => rw [fill, List.foldlM_nil, Option.pure_def]
  | @slot slot slots key name item value items members hkey hname hresult _ ih =>
      rw [List.forall_mem_cons] at hslots hempty
      rw [List.pairwise_cons] at hapart
      have htake : takeMember (layout.rule room) draft (key, value) =
          (item.result slot.read room).map fun x => slot.set x draft := by
        rw [takeMember_rule, hkey, Option.bind_some]
        simp only [layout.find?_of_mem hslots.1 hname, Slot.take, hempty.1, hresult]
        rfl
      have hrest : ∀ x, fill room slots items (slot.set x draft) =
          members.foldlM (takeMember (layout.rule room)) (slot.set x draft) := by
        refine fun x => ih _ hslots.2 hapart.2 fun other hother => ?_
        rw [(hapart.1 other hother).2, hempty.2 other hother]
      rw [fill, List.foldlM_cons, htake]
      simp only [hrest]
      cases item.result slot.read room <;> rfl

section Positions

variable {slot : Slot σ} {slots : List (Slot σ)} {finish : σ → Option α} {draft : σ}
  {found : Items} {items : List Spelling} {stop : Nat}

/-- The next slot is filled with an item that may be left off. -/
theorem fill_next {k : Option slot.α × Items → Reading α}
    (h : found.Shows items (.close stop)) (hfits : ∀ item ∈ items, item.Fits room other)
    (hread : Steady slot.read) (hnone : finish draft = (k (none, .close stop)).toOption)
    (hsome : ∀ x {more : Items} {rest : List Spelling}, more.Shows rest (.close stop) →
      (∀ item ∈ rest, item.Fits room other) →
      (fill other slots rest (slot.set x draft)).bind finish = (k (some x, more)).toOption) :
    (fill other (slot :: slots) items draft).bind finish =
      (found.next (slot.read room) >>= k).toOption := by
  cases h with
  | done => exact hnone
  | @item node after more _ item rest hnode hmore =>
      rw [List.forall_mem_cons] at hfits
      have hrest := fun x => hsome x hmore hfits.2
      rw [Items.next, toOption_bind, toOption_map, toOption_settle,
        hread.toOption_eq hnode hfits.1, fill]
      cases item.result slot.read other with
      | none => rfl
      | some x => exact hrest x

/-- The next slot is filled with an item that is needed. -/
theorem fill_required {expected : Expected} {index : Nat} {k : slot.α × Items → Reading α}
    (h : found.Shows items (.close stop)) (hfits : ∀ item ∈ items, item.Fits room other)
    (hread : Steady slot.read) (hmissing : finish draft = none)
    (hrest : ∀ x {more : Items} {rest : List Spelling}, more.Shows rest (.close stop) →
      (∀ item ∈ rest, item.Fits room other) →
      (fill other slots rest (slot.set x draft)).bind finish = (k (x, more)).toOption) :
    (fill other (slot :: slots) items draft).bind finish =
      (found.required expected index (slot.read room) >>= k).toOption := by
  cases h with
  | done => exact hmissing
  | @item node after more _ item rest hnode hmore =>
      rw [List.forall_mem_cons] at hfits
      have hlater := fun x => hrest x hmore hfits.2
      rw [Items.required, toOption_bind, toOption_map, toOption_settle,
        hread.toOption_eq hnode hfits.1, fill]
      cases item.result slot.read other with
      | none => rfl
      | some x => exact hlater x

/-- There are no items for further slots. -/
theorem fill_finish {x : α} (h : found.Shows items (.close stop))
    (hfinish : finish draft = some x) :
    (fill other [] items draft).bind finish =
      (found.finish >>= fun _ => (.ok x : Reading α)).toOption := by
  cases h with
  | done => exact hfinish
  | @item node _ _ _ _ _ _ _ =>
      rw [Items.finish.eq_def]
      cases node <;> rfl

end Positions

end Layout

/-- A reader of a structure, from an object or from an array. -/
structure Record (read : Reader α) where
  σ : Type
  layout : Layout σ
  steady : layout.IsSteady
  /-- The draft without any value. -/
  blank : σ
  empty : ∀ slot ∈ layout.slots, slot.get blank = none
  /-- What a draft gives in the end, if it has all that is needed. -/
  finish : σ → Option α
  object : ∀ room start found, (read room (.object start found)).toOption =
    (inner? room).bind fun room =>
      ((found.fold (layout.rule room) blank).toOption.map Prod.fst).bind finish
  full : ∀ start found, (read 0 (.array start found)).toOption = none
  array : ∀ {room other start stop : Nat} {found : Items} {items : List Spelling},
    found.Shows items (.close stop) → (∀ item ∈ items, item.Fits room other) →
    (Layout.fill other layout.slots items blank).bind finish =
      (read (room + 1) (.array start found)).toOption
  scalar : ∀ {room : Nat} {node : Node} {spelling : Spelling}, node.Shows spelling →
    spelling.nesting = 0 → (read room node).toOption = none

namespace Record

variable {read : Reader α} (record : Record read) {room other : Nat} {node : Node}
  {items : List Spelling} {members : List (List Piece × Spelling)}

theorem toOption_object (hnode : node.Shows (.object members))
    (hfits : (Spelling.object members).Fits room other) :
    (read room node).toOption = (inner? other).bind fun other =>
      (members.foldlM (takeMember (record.layout.rule other)) record.blank).bind record.finish := by
  cases hnode with
  | object hfound =>
      rw [record.object]
      rcases hfits.members with ⟨hroom, hother⟩ | ⟨left, left', hleft, hleft', hmembers⟩
      · rw [hroom, hother]
        rfl
      · rw [hleft, hleft', Option.bind_some, Option.bind_some, toOption_fold _ hfound]
        exact fun member hmember =>
          record.layout.alike_rule record.steady (hmembers member hmember)

theorem toOption_array (hnode : node.Shows (.array items))
    (hfits : (Spelling.array items).Fits room other) :
    (read room node).toOption = (inner? other).bind fun other =>
      (Layout.fill other record.layout.slots items record.blank).bind record.finish := by
  cases hnode with
  | array hfound =>
      rcases hfits.items with ⟨hroom, hother⟩ | ⟨left, left', hleft, hleft', hitems⟩
      · cases room with
        | zero =>
            rw [record.full, hother]
            rfl
        | succ room => cases hroom
      · cases room with
        | zero => cases hleft
        | succ room =>
            cases hleft
            rw [← record.array hfound hitems, hleft', Option.bind_some]

theorem result_object : (Spelling.object members).result read room =
    (inner? room).bind fun room =>
      (members.foldlM (takeMember (record.layout.rule room)) record.blank).bind record.finish :=
  record.toOption_object (Spelling.shows_node _) Spelling.fits_self

theorem result_array : (Spelling.array items).result read room =
    (inner? room).bind fun room =>
      (Layout.fill room record.layout.slots items record.blank).bind record.finish :=
  record.toOption_array (Spelling.shows_node _) Spelling.fits_self

include record in
/-- A reader of a structure is steady. -/
theorem steady_read : Steady read := by
  constructor
  intro node spelling room other hnode hfits
  cases spelling with
  | object members => rw [record.toOption_object hnode hfits, record.result_object]
  | array items => rw [record.toOption_array hnode hfits, record.result_array]
  | _ =>
      rw [record.scalar hnode (by simp [Spelling.nesting]), Spelling.result,
        record.scalar (Spelling.shows_node _) (by simp [Spelling.nesting])]

/-- More values than fields are refused. -/
theorem result_of_too_many (h : record.layout.slots.length < items.length) :
    (Spelling.array items).result read room = none := by
  rw [record.result_array, Option.bind_eq_none_iff]
  intro room _
  rw [Layout.fill_eq_none _ h]
  rfl

/-- Values that end before a field that is needed are refused. -/
theorem result_of_too_few {i : Nat} (hi : i < record.layout.slots.length)
    (hneeded : ∀ draft, record.layout.slots[i].get draft = none → record.finish draft = none)
    (h : items.length ≤ i) : (Spelling.array items).result read room = none := by
  rw [record.result_array, Option.bind_eq_none_iff]
  intro room _
  rw [Option.bind_eq_none_iff]
  intro draft hdraft
  refine hneeded draft ?_
  rw [Layout.get_of_fill hdraft, record.empty _ (List.getElem_mem hi)]
  intro filled hfilled
  obtain ⟨j, hj, rfl⟩ := List.mem_take_iff_getElem.1 hfilled
  exact (List.pairwise_iff_getElem.1 record.layout.apart j i (by omega) hi (by omega)).2

end Record

end CodeSmells.Json
