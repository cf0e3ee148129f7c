import CodeSmells.Proofs.Json.Meaning
import Mathlib.Data.List.Pairwise

/-!
# Fields of structures

The members of an object that are read into a structure may stand in any order.
What counts are the values under the names of each field, of which there may be
one at most.  An array is read into a structure item by item, in the order of its
fields, and fields at the end may be left out.

**Results.**

* `leads_slot`, `leads_unknown`: what one member does to a structure.
* `readsAs_map`: what an object means that is read into a map.
* `fills_cons`, `supplies_getD_iff`: the values of a field, and its default.
* `Layout.leads_iff`: members fill the fields of a structure, in any order.
* `next_iff`, `required_iff`, `finish_iff`: what one item does to a structure.
-/

namespace CodeSmells.Json

open Fallible

section Members

variable {σ : Type} {field : σ → String → FieldRule σ} {draft result : σ}

/-- A structure takes the members one after the other and gets from its draft to the result. -/
def Leads (field : σ → String → FieldRule σ) (entries : Entries) (draft result : σ) : Prop :=
  ∃ stop, entries.fold field draft = .ok (result, stop)

theorem leads_nil {entries : Entries} (h : entries.Holds []) :
    Leads field entries draft result ↔ result = draft := by
  cases h with
  | close => simp [Leads, Entries.fold, eq_comm]

variable {key : Quotation} {afterKey after : Nat} {node : Node} {more : Entries} {name : String}

/-- A member that is known is read into the draft. -/
theorem leads_known {read : Node → Reading σ} (hkey : key.read = .ok name)
    (hfield : field draft name = .known read) :
    Leads field (.entry key afterKey node after more) draft result ↔
      ∃ next, read node = .ok next ∧ Leads field more next result := by
  have hfold : Entries.fold field draft (.entry key afterKey node after more) =
      settle after (read node) >>= fun next => more.fold field next := by
    rw [Entries.fold, hkey, ok_bind, hfield]
  simp only [Leads, hfold, bind_eq_ok_iff, settle_eq_ok_iff]
  constructor
  · rintro ⟨stop, next, hnext, hstop⟩
    exact ⟨next, hnext, stop, hstop⟩
  · rintro ⟨next, hnext, stop, hstop⟩
    exact ⟨stop, next, hnext, hstop⟩

/-- A member that is not known is passed over. -/
theorem leads_unknown {value : Json} (hkey : key.read = .ok name) (hnode : node.Holds value)
    (hfield : field draft name = .unknown) :
    Leads field (.entry key afterKey node after more) draft result ↔
      Leads field more draft result := by
  have hfold : Entries.fold field draft (.entry key afterKey node after more) =
      more.fold field draft := by
    rw [Entries.fold, hkey, ok_bind, hfield]
    simp only [Node.skip_of_holds hnode, ok_bind]
  rw [Leads, hfold, Leads]

/-- The rule of a field that may be met once. -/
def slotRule {α : Type} (old : Option α) (name : String) (read : Node → Reading α)
    (set : α → σ) : FieldRule σ :=
  if old.isSome then .repeated name else .known fun node => (read node).map set

/-- A member for a field must be the first one, and its value is what the field gets. -/
theorem leads_slot {α : Type} {old : Option α} {met : String} {read : Reader α} {room : Nat}
    {set : α → σ} {value : Json} {results : α → Prop} (hkey : key.read = .ok name)
    (hnode : node.Holds value) (hread : Means read value results)
    (hreadable : IsReadable room value)
    (hfield : field draft name = slotRule old met (read room) set) :
    Leads field (.entry key afterKey node after more) draft result ↔
      old = none ∧ ∃ x, results x ∧ Leads field more (set x) result := by
  cases old with
  | some x =>
      have hrepeated : field draft name = .repeated met := hfield
      have hfold : Entries.fold field draft (.entry key afterKey node after more) =
          refuseAt (.repeatedField met) afterKey := by
        rw [Entries.fold, hkey, ok_bind, hrepeated]
      constructor
      · rintro ⟨stop, hstop⟩
        rw [hfold] at hstop
        cases hstop
      · rintro ⟨hnone, -⟩
        cases hnone
  | none =>
      rw [leads_known hkey hfield]
      simp only [map_eq_ok_iff, hread hnode hreadable]
      constructor
      · rintro ⟨_, ⟨x, hx, rfl⟩, hmore⟩
        exact ⟨trivial, x, hx, hmore⟩
      · rintro ⟨-, x, hx, hmore⟩
        exact ⟨_, ⟨x, hx, rfl⟩, hmore⟩

end Members

section Maps

variable {α : Type} {read : Reader α} {meaning : Json → α → Prop}

/-- The members have the names of the entries and mean their values, one by one. -/
def Lists (meaning : Json → α → Prop) : List (String × Json) → List (String × α) → Prop :=
  List.Forall₂ fun member entry => entry.1 = member.1 ∧ meaning member.2 entry.2

theorem leads_map {room : Nat} {entries : Entries} {members : List (String × Json)}
    (h : entries.Holds members) (hread : ReadsAs read meaning)
    (hreadable : ∀ e ∈ members, IsReadable room e.2) (map result : NameMap α) :
    Leads (mapField (read room)) entries map result ↔
      ∃ listed, Lists meaning members listed ∧
        result = listed.foldl (fun map e => map.insert e.1 e.2) map := by
  induction members generalizing entries map with
  | nil =>
      rw [leads_nil h]
      simp [Lists]
  | cons member members ih =>
      obtain ⟨name, value⟩ := member
      cases h with
      | @entry _ _ node _ _ _ _ _ hkey hnode hmore =>
          have hfirst := hread value hnode (hreadable (name, value) (by simp))
          have hrest := fun map => ih hmore (fun e he => hreadable e (by simp [he])) map
          have hfield : mapField (read room) map name =
              .known fun node => (read room node).map fun value => map.insert name value := rfl
          simp only [leads_known hkey hfield, map_eq_ok_iff, hfirst, hrest]
          constructor
          · rintro ⟨_, ⟨x, hx, rfl⟩, listed, hlisted, rfl⟩
            exact ⟨(name, x) :: listed, .cons ⟨rfl, hx⟩ hlisted, rfl⟩
          · rintro ⟨listed, hlisted, rfl⟩
            cases hlisted with
            | @cons _ entry _ listed hentry hlisted =>
                obtain ⟨key, x⟩ := entry
                obtain ⟨rfl, hx⟩ := hentry
                exact ⟨_, ⟨x, hx, rfl⟩, listed, hlisted, rfl⟩

/-- The value is an object whose members make up the map; the last of a name counts. -/
def MapOf (meaning : Json → α → Prop) (value : Json) (map : NameMap α) : Prop :=
  ∃ members listed, value = .object members ∧ Lists meaning members listed ∧
    map = NameMap.ofList listed

theorem readsAs_map (h : ReadsAs read meaning) : ReadsAs (readMap read) (MapOf meaning) := by
  intro value room node hnode hreadable map
  cases value with
  | object members =>
      obtain ⟨inner, rfl, hmembers⟩ := hreadable.members
      cases hnode with
      | @object start entries _ hentries =>
          have hread : readMap read (inner + 1) (.object start entries) =
              (entries.fold (mapField (read inner)) NameMap.empty).map Prod.fst := rfl
          have hleads : readMap read (inner + 1) (.object start entries) = .ok map ↔
              Leads (mapField (read inner)) entries NameMap.empty map := by
            simp [hread, map_eq_ok_iff, Leads]
          rw [hleads, leads_map hentries h hmembers]
          simp [MapOf, NameMap.ofList]
  | _ =>
      cases hnode
      simp [readMap, not_refuse, MapOf]

theorem exists_mapOf_iff {value : Json} :
    (∃ map, MapOf meaning value map) ↔
      ∃ members, value = .object members ∧ ∀ e ∈ members, ∃ x, meaning e.2 x := by
  have hentry : ∀ e : String × Json,
      (∃ entry : String × α, entry.1 = e.1 ∧ meaning e.2 entry.2) ↔ ∃ x, meaning e.2 x := by
    intro e
    constructor
    · rintro ⟨⟨_, x⟩, -, hx⟩
      exact ⟨x, hx⟩
    · rintro ⟨x, hx⟩
      exact ⟨(e.1, x), rfl, hx⟩
  simp only [← hentry, ← exists_forall₂_iff]
  constructor
  · rintro ⟨_, members, listed, rfl, hlisted, -⟩
    exact ⟨members, rfl, listed, hlisted⟩
  · rintro ⟨members, rfl, listed, hlisted⟩
    exact ⟨_, members, listed, rfl, hlisted, rfl⟩

end Maps

section Slots

variable {α : Type} {meaning : Json → α → Prop} {values : List Json}

/-- The values under any of the names, in the order of the members. -/
def valuesUnder (names : List String) (members : List (String × Json)) : List Json :=
  (members.filter fun e => names.contains e.1).map Prod.snd

@[simp]
theorem valuesUnder_nil (names : List String) : valuesUnder names [] = [] :=
  rfl

theorem valuesUnder_of_mem {names : List String} {name : String} {value : Json}
    {members : List (String × Json)} (h : name ∈ names) :
    valuesUnder names ((name, value) :: members) = value :: valuesUnder names members := by
  simp [valuesUnder, h]

theorem valuesUnder_of_notMem {names : List String} {name : String} {value : Json}
    {members : List (String × Json)} (h : name ∉ names) :
    valuesUnder names ((name, value) :: members) = valuesUnder names members := by
  simp [valuesUnder, h]

theorem valuesUnder_eq_nil {name : String} {members : List (String × Json)}
    (h : name ∉ members.map Prod.fst) : valuesUnder [name] members = [] := by
  have hnone : ∀ e ∈ members, ¬ [name].contains e.1 = true := by
    rintro e he hname
    rw [List.contains_iff_mem, List.mem_singleton] at hname
    exact h (List.mem_map.2 ⟨e, he, hname⟩)
  rw [valuesUnder, List.filter_eq_nil_iff.2 hnone, List.map_nil]

/-- The value of a member stands alone under its name if no name is repeated. -/
theorem valuesUnder_eq_singleton {name : String} {value : Json} {members : List (String × Json)}
    (hnodup : (members.map Prod.fst).Nodup) (hmem : (name, value) ∈ members) :
    valuesUnder [name] members = [value] := by
  induction members with
  | nil => cases hmem
  | cons member members ih =>
      rw [List.map_cons, List.nodup_cons] at hnodup
      rcases List.mem_cons.1 hmem with rfl | hrest
      · rw [valuesUnder_of_mem (List.mem_singleton_self name), valuesUnder_eq_nil hnodup.1]
      · have hother : member.1 ∉ [name] := by
          rintro hname
          rw [List.mem_singleton] at hname
          exact hnodup.1 (List.mem_map.2 ⟨_, hrest, hname.symm⟩)
        rw [valuesUnder_of_notMem hother, ih hnodup.2 hrest]

/-- There is one value, and it is such a value. -/
def Sole (values : List Json) (such : Json → Prop) : Prop :=
  ∃ value, values = [value] ∧ such value

/-- There is one value, and it is such a value, or there is none, and the rest holds instead. -/
def SoleOr (values : List Json) (such : Json → Prop) (otherwise : Prop) : Prop :=
  Sole values such ∨ (values = [] ∧ otherwise)

theorem exists_sole_iff :
    (∃ x, Sole values fun value => meaning value x) ↔
      Sole values fun value => ∃ x, meaning value x := by
  constructor
  · rintro ⟨x, value, hvalues, hx⟩
    exact ⟨value, hvalues, x, hx⟩
  · rintro ⟨value, hvalues, x, hx⟩
    exact ⟨x, value, hvalues, hx⟩

theorem exists_soleOr_iff {omitted : α} :
    (∃ x, SoleOr values (fun value => meaning value x) (x = omitted)) ↔
      SoleOr values (fun value => ∃ x, meaning value x) True := by
  constructor
  · rintro ⟨x, hsole | ⟨hnone, -⟩⟩
    · exact .inl (exists_sole_iff.1 ⟨x, hsole⟩)
    · exact .inr ⟨hnone, trivial⟩
  · rintro (hsole | ⟨hnone, -⟩)
    · obtain ⟨x, hx⟩ := exists_sole_iff.2 hsole
      exact ⟨x, .inl hx⟩
    · exact ⟨omitted, .inr ⟨hnone, rfl⟩⟩

theorem Sole.of_perm {such : Json → Prop} {others : List Json} (h : Sole values such)
    (hperm : others.Perm values) : Sole others such := by
  obtain ⟨value, rfl, hsuch⟩ := h
  exact ⟨value, List.perm_singleton.1 hperm, hsuch⟩

theorem SoleOr.of_perm {such : Json → Prop} {otherwise : Prop} {others : List Json}
    (h : SoleOr values such otherwise) (hperm : others.Perm values) :
    SoleOr others such otherwise := by
  rcases h with hsole | ⟨rfl, hotherwise⟩
  · exact .inl (hsole.of_perm hperm)
  · exact .inr ⟨List.perm_nil.1 hperm, hotherwise⟩

/-- What the values of a field give; there is one of them at most. -/
def Supplies (meaning : Json → α → Prop) (values : List Json) : Option α → Prop
  | none => values = []
  | some x => Sole values fun value => meaning value x

/-- What a field has after its values, if it had something before or not. -/
def Fills (meaning : Json → α → Prop) (values : List Json) : Option α → Option α → Prop
  | none, given => Supplies meaning values given
  | some x, given => values = [] ∧ given = some x

theorem supplies_getD_iff {omitted x : α} :
    (∃ given, Supplies meaning values given ∧ given.getD omitted = x) ↔
      SoleOr values (fun value => meaning value x) (x = omitted) := by
  constructor
  · rintro ⟨_ | y, hgiven, rfl⟩
    · exact .inr ⟨hgiven, rfl⟩
    · exact .inl hgiven
  · rintro (hsole | ⟨hnone, rfl⟩)
    · exact ⟨some x, hsole, rfl⟩
    · exact ⟨none, hnone, rfl⟩

@[simp]
theorem fills_nil {old given : Option α} : Fills meaning [] old given ↔ given = old := by
  cases old <;> cases given <;> simp [Fills, Supplies, Sole]

/-- The first value must find the field empty, and no other may follow it. -/
theorem fills_cons {value : Json} {old given : Option α} :
    Fills meaning (value :: values) old given ↔
      old = none ∧ ∃ x, meaning value x ∧ Fills meaning values (some x) given := by
  cases old with
  | some x => simp [Fills]
  | none => cases given <;> simp [Fills, Supplies, Sole, and_comm]

end Slots

section Layouts

/-- A field of a structure: the names it has in an object, and its place in a draft. -/
structure Slot (σ : Type) where
  α : Type
  names : List String
  /-- The name in the refusal of a second value. -/
  met : String
  get : σ → Option α
  set : α → σ → σ
  get_set : ∀ x draft, get (set x draft) = some x
  read : Reader α
  meaning : Json → α → Prop
  reads : ReadsAs read meaning

variable {σ : Type}

namespace Slot

/-- What the slot has in the end is what the values under its names give. -/
def Filled (slot : Slot σ) (members : List (String × Json)) (draft result : σ) : Prop :=
  Fills slot.meaning (valuesUnder slot.names members) (slot.get draft) (slot.get result)

/-- No name of the other slot is a name of this one, and no value of it is put in here. -/
def Apart (slot other : Slot σ) : Prop :=
  (∀ name ∈ other.names, name ∉ slot.names) ∧
    ∀ x draft, slot.get (other.set x draft) = slot.get draft

end Slot

/-- The fields of a structure; a draft has nothing besides them. -/
structure Layout (σ : Type) where
  slots : List (Slot σ)
  apart : slots.Pairwise fun slot other => slot.Apart other ∧ other.Apart slot
  ext : ∀ draft result : σ, (∀ slot ∈ slots, slot.get result = slot.get draft) → result = draft

namespace Layout

/-- What a structure does with a member: each of its slots takes one value. -/
def rule (layout : Layout σ) (room : Nat) (draft : σ) (name : String) : FieldRule σ :=
  match layout.slots.find? fun slot => slot.names.contains name with
  | none => .unknown
  | some slot => slotRule (slot.get draft) slot.met (slot.read room) fun x => slot.set x draft

variable (layout : Layout σ) {room : Nat}

theorem eq_or_apart {slot other : Slot σ} (hslot : slot ∈ layout.slots)
    (hother : other ∈ layout.slots) : slot = other ∨ slot.Apart other := by
  have hforward : layout.slots.Pairwise fun slot other => slot = other ∨ slot.Apart other :=
    layout.apart.imp fun h => .inr h.1
  have hback : layout.slots.Pairwise (flip fun slot other => slot = other ∨ slot.Apart other) :=
    layout.apart.imp fun h => .inr h.2
  exact hforward.forall_of_forall_of_flip (fun _ _ => .inl rfl) hback hslot hother

/-- Members fill the slots of a structure, in whatever order they stand. -/
theorem leads_iff {entries : Entries} {members : List (String × Json)}
    (h : entries.Holds members) (hreadable : ∀ e ∈ members, IsReadable room e.2)
    (draft result : σ) :
    Leads (layout.rule room) entries draft result ↔
      ∀ slot ∈ layout.slots, slot.Filled members draft result := by
  induction members generalizing entries draft with
  | nil =>
      rw [leads_nil h]
      simp only [Slot.Filled, valuesUnder_nil, fills_nil]
      constructor
      · rintro rfl slot _
        rfl
      · exact layout.ext draft result
  | cons member members ih =>
      obtain ⟨name, value⟩ := member
      cases h with
      | entry hkey hnode hmore =>
          have hvalue := hreadable (name, value) (by simp)
          have hrest := fun draft => ih hmore (fun e he => hreadable e (by simp [he])) draft
          cases hfind : layout.slots.find? fun slot => slot.names.contains name with
          | none =>
              have hrule : layout.rule room draft name = .unknown := by
                rw [rule, hfind]
              have hnone := List.find?_eq_none.1 hfind
              rw [leads_unknown hkey hnode hrule, hrest]
              refine forall₂_congr fun slot hslot => ?_
              have hname : name ∉ slot.names := by simpa using hnone slot hslot
              rw [Slot.Filled, Slot.Filled, valuesUnder_of_notMem hname]
          | some slot =>
              have hrule : layout.rule room draft name = slotRule (slot.get draft) slot.met
                  (slot.read room) fun x => slot.set x draft := by
                rw [rule, hfind]
              have hslot : slot ∈ layout.slots := List.mem_of_find?_eq_some hfind
              have hname : name ∈ slot.names := by simpa using List.find?_some hfind
              rw [leads_slot hkey hnode (slot.reads value) hvalue hrule]
              simp only [hrest]
              constructor
              · rintro ⟨hempty, x, hx, hall⟩ other hother
                rcases layout.eq_or_apart hother hslot with rfl | hapart
                · have hfilled := hall other hother
                  rw [Slot.Filled, other.get_set] at hfilled
                  rw [Slot.Filled, valuesUnder_of_mem hname, fills_cons]
                  exact ⟨hempty, x, hx, hfilled⟩
                · have hfilled := hall other hother
                  rw [Slot.Filled, hapart.2] at hfilled
                  rw [Slot.Filled, valuesUnder_of_notMem (hapart.1 name hname)]
                  exact hfilled
              · intro hall
                have hown := hall slot hslot
                rw [Slot.Filled, valuesUnder_of_mem hname, fills_cons] at hown
                obtain ⟨hempty, x, hx, hfilled⟩ := hown
                refine ⟨hempty, x, hx, fun other hother => ?_⟩
                rcases layout.eq_or_apart hother hslot with rfl | hapart
                · rw [Slot.Filled, other.get_set]
                  exact hfilled
                · have hkept := hall other hother
                  rw [Slot.Filled, valuesUnder_of_notMem (hapart.1 name hname)] at hkept
                  rw [Slot.Filled, hapart.2]
                  exact hkept

end Layout

end Layouts

section Positions

variable {α : Type} {read : Reader α} {meaning : Json → α → Prop} {room : Nat}
  {items : Items} {values : List Json}

/-- The next item is read, if there is one. -/
theorem next_iff (hread : ReadsAs read meaning) (h : items.Holds values)
    (hreadable : ∀ v ∈ values, IsReadable room v) :
    ∃ more, Items.Holds more values.tail ∧ ∀ given rest,
      items.next (read room) = .ok (given, rest) ↔
        Supplies meaning (values.take 1) given ∧ rest = more := by
  cases h with
  | @close stop =>
      refine ⟨.close stop, .close, fun given rest => ?_⟩
      cases given <;> simp [Items.next, Supplies, Sole, eq_comm]
  | @item node after more value values hnode hmore =>
      refine ⟨more, hmore, fun given rest => ?_⟩
      have hfirst := hread value hnode (hreadable value (by simp))
      simp only [Items.next, map_eq_ok_iff, settle_eq_ok_iff, hfirst]
      cases given <;> simp [Supplies, Sole, eq_comm]

/-- The next item is read, and there must be one. -/
theorem required_iff (hread : ReadsAs read meaning) (h : items.Holds values)
    (hreadable : ∀ v ∈ values, IsReadable room v) :
    ∃ more, Items.Holds more values.tail ∧ ∀ expected index x rest,
      items.required expected index (read room) = .ok (x, rest) ↔
        Sole (values.take 1) (fun value => meaning value x) ∧ rest = more := by
  cases h with
  | @close stop =>
      refine ⟨.close stop, .close, fun expected index x rest => ?_⟩
      simp [Items.required, Sole, refuseAt]
  | @item node after more value values hnode hmore =>
      refine ⟨more, hmore, fun expected index x rest => ?_⟩
      have hfirst := hread value hnode (hreadable value (by simp))
      simp only [Items.required, map_eq_ok_iff, settle_eq_ok_iff, hfirst]
      simp [Sole, eq_comm]

/-- No items are left. -/
theorem finish_iff (h : items.Holds values) : items.finish = .ok () ↔ values = [] := by
  cases h with
  | close => simp [Items.finish]
  | item hnode => cases hnode <;> simp [Items.finish, refuseAt]

end Positions

end CodeSmells.Json
