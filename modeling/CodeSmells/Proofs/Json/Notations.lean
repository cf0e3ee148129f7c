import CodeSmells.Proofs.Json.Records

/-!
# Notations of structures

A structure may be written as an array of its first fields in their order, or as an
object with members for these fields in any order.  The values of fields may be
written otherwise too, as may the items of arrays and the values of members.  A
reader of a structure finds the same in all notations.

**Results.**

* `agrees_items`, `agrees_values`: arrays and maps of parts in different notations.
* `Record.agrees`: arrays and objects of a structure.
* `Agrees.interchangeable`: notations that unfold to the same can be exchanged.
-/

namespace CodeSmells.Json

open Fallible

variable {α σ : Type}

section Notations

/-- A field of a structure: its names, and how its value may be written otherwise. -/
structure Field where
  names : List String
  unfolds : Spelling → Spelling → Prop

/-- The key is a name of the field. -/
def Field.IsNamed (field : Field) (key : List Piece) : Prop :=
  ∃ name ∈ field.names, textOf? key = some name

theorem Field.isNamed_plainPieces {name : String} {names : List String}
    {unfolds : Spelling → Spelling → Prop} :
    (⟨name :: names, unfolds⟩ : Field).IsNamed (plainPieces name) :=
  ⟨name, List.mem_cons_self, textOf?_plainPieces name⟩

/-- Items for the first fields in their order, and members with the same values. -/
inductive ByName : List Field → List Spelling → List (List Piece × Spelling) → Prop
  | omitted {fields : List Field} : ByName fields [] []
  | field {field : Field} {fields : List Field} {key : List Piece} {item value : Spelling}
      {items : List Spelling} {members : List (List Piece × Spelling)} :
      field.IsNamed key → field.unfolds item value → ByName fields items members →
      ByName (field :: fields) (item :: items) ((key, value) :: members)

/-- A member and the same member, where that of a field may have another name and notation. -/
inductive MemberUnfolds (fields : List Field) :
    List Piece × Spelling → List Piece × Spelling → Prop
  | same (member : List Piece × Spelling) : MemberUnfolds fields member member
  | field {field : Field} {key key' : List Piece} {value value' : Spelling} :
      field ∈ fields → field.IsNamed key → field.IsNamed key' → field.unfolds value value' →
      MemberUnfolds fields (key, value) (key', value')

/-- A structure in array notation or object notation, and the same in object notation. -/
inductive FieldsUnfold (fields : List Field) : Spelling → Spelling → Prop
  | same (spelling : Spelling) : FieldsUnfold fields spelling spelling
  | array {items : List Spelling} {named members : List (List Piece × Spelling)} :
      ByName fields items named → members.Perm named →
      FieldsUnfold fields (.array items) (.object members)
  | object {members named members' : List (List Piece × Spelling)} :
      List.Forall₂ (MemberUnfolds fields) members named → members'.Perm named →
      FieldsUnfold fields (.object members) (.object members')

/-- An array, and the same with its items in another notation. -/
inductive ItemsUnfold (unfolds : Spelling → Spelling → Prop) : Spelling → Spelling → Prop
  | same (spelling : Spelling) : ItemsUnfold unfolds spelling spelling
  | array {items items' : List Spelling} :
      List.Forall₂ unfolds items items' → ItemsUnfold unfolds (.array items) (.array items')

/-- An object, and the same with the values of its members in another notation. -/
inductive ValuesUnfold (unfolds : Spelling → Spelling → Prop) : Spelling → Spelling → Prop
  | same (spelling : Spelling) : ValuesUnfold unfolds spelling spelling
  | object {members members' : List (List Piece × Spelling)} :
      List.Forall₂ (fun member member' => textOf? member.1 = textOf? member'.1 ∧
        unfolds member.2 member'.2) members members' →
      ValuesUnfold unfolds (.object members) (.object members')

end Notations

section Results

variable {read : Reader α} {unfolds : Spelling → Spelling → Prop} {room : Nat}

/-- A reader finds the same in a spelling and in what it unfolds to. -/
def Agrees (read : Reader α) (unfolds : Spelling → Spelling → Prop) : Prop :=
  ∀ ⦃spelling other : Spelling⦄, unfolds spelling other →
    ∀ room, spelling.result read room = other.result read room

/-- Items that do the same one by one do the same in a row. -/
theorem foldlM_congr {β : Type} {step : σ → β → Option σ} {items others : List β}
    (h : List.Forall₂ (fun item other => ∀ draft, step draft item = step draft other) items others)
    (draft : σ) : items.foldlM step draft = others.foldlM step draft := by
  induction h generalizing draft with
  | nil => rfl
  | cons hitem _ ih =>
      rw [List.foldlM_cons, List.foldlM_cons, hitem draft]
      exact Option.bind_congr fun next _ => ih next

theorem agrees_eq : Agrees read Eq := by
  rintro spelling _ rfl room
  rfl

theorem agrees_items (hread : Steady read) (h : Agrees read unfolds) :
    Agrees (readList read) (ItemsUnfold unfolds) := by
  intro spelling other hunfolds room
  cases hunfolds with
  | same => rfl
  | array hitems =>
      rw [hread.result_list, hread.result_list]
      refine Option.bind_congr fun room _ => ?_
      induction hitems with
      | nil => rfl
      | cons hitem _ ih => rw [List.mapM_cons, List.mapM_cons, h hitem, ih]

/-- The value of a member is put into a map under the name of the member. -/
theorem takeMember_map (read : Reader α) (map : NameMap α) (member : List Piece × Spelling) :
    takeMember (mapField (read room)) map member = (textOf? member.1).bind fun name =>
      (member.2.result read room).map fun value => map.insert name value :=
  Option.bind_congr fun _ _ => toOption_map _ _

theorem agrees_values (hread : Steady read) (h : Agrees read unfolds) :
    Agrees (readMap read) (ValuesUnfold unfolds) := by
  intro spelling other hunfolds room
  cases hunfolds with
  | same => rfl
  | object hmembers =>
      rw [hread.result_map, hread.result_map]
      refine Option.bind_congr fun room _ => foldlM_congr (hmembers.imp ?_) _
      intro member member' hmember map
      rw [takeMember_map, takeMember_map, hmember.1, h hmember.2]

end Results

section Records

/-- A slot takes what the field holds. -/
def Field.Matches (field : Field) (slot : Slot σ) : Prop :=
  field.names = slot.names ∧ Agrees slot.read field.unfolds

variable {fields : List Field} {slots : List (Slot σ)} {room : Nat}

theorem exists_slot {field : Field} (h : List.Forall₂ Field.Matches fields slots)
    (hfield : field ∈ fields) : ∃ slot ∈ slots, field.Matches slot := by
  induction h with
  | nil => cases hfield
  | cons hfirst _ ih =>
      rcases List.mem_cons.1 hfield with rfl | hrest
      · exact ⟨_, List.mem_cons_self, hfirst⟩
      · obtain ⟨slot, hslot, hmatches⟩ := ih hrest
        exact ⟨slot, List.mem_cons_of_mem _ hslot, hmatches⟩

/-- Items and members for the same fields give the same to the slots of the fields. -/
theorem ByName.named {items : List Spelling} {members : List (List Piece × Spelling)}
    (h : ByName fields items members) (hslots : List.Forall₂ Field.Matches fields slots) :
    Layout.Named room slots items members := by
  induction h generalizing slots with
  | omitted => exact .omitted
  | field hkey hvalue _ ih =>
      obtain ⟨name, hname, hkey⟩ := hkey
      cases hslots with
      | cons hslot hslots =>
          rw [hslot.1] at hname
          exact .slot hkey hname (hslot.2 hvalue room) (ih hslots)

/-- A member does the same to a structure in either notation. -/
theorem MemberUnfolds.takeMember_eq {layout : Layout σ}
    (hslots : List.Forall₂ Field.Matches fields layout.slots)
    {member member' : List Piece × Spelling} (h : MemberUnfolds fields member member')
    (draft : σ) : takeMember (layout.rule room) draft member =
      takeMember (layout.rule room) draft member' := by
  cases h with
  | same => rfl
  | @field field key key' value value' hfield hkey hkey' hvalue =>
      obtain ⟨slot, hslot, hmatches⟩ := exists_slot hslots hfield
      obtain ⟨name, hname, hkey⟩ := hkey
      obtain ⟨name', hname', hkey'⟩ := hkey'
      rw [hmatches.1] at hname hname'
      simp only [layout.takeMember_rule, hkey, hkey', Option.bind_some,
        layout.find?_of_mem hslot hname, layout.find?_of_mem hslot hname', Slot.take,
        hmatches.2 hvalue room]

namespace Record

variable {read : Reader α} (record : Record read)

include record in
/-- A structure is read alike from arrays and from objects. -/
theorem agrees (hslots : List.Forall₂ Field.Matches fields record.layout.slots) :
    Agrees read (FieldsUnfold fields) := by
  intro spelling other hunfolds room
  cases hunfolds with
  | same => rfl
  | array hnamed hperm =>
      rw [record.result_array, record.result_object]
      refine Option.bind_congr fun room _ => ?_
      rw [record.layout.foldlM_perm_members hperm,
        record.layout.fill_eq_foldlM (hnamed.named hslots) record.blank (fun _ h => h)
          (record.layout.apart.imp fun h => h.2) record.empty]
  | object hmembers hperm =>
      rw [record.result_object, record.result_object]
      refine Option.bind_congr fun room _ => ?_
      rw [record.layout.foldlM_perm_members hperm,
        foldlM_congr (hmembers.imp fun _ _ hmember => hmember.takeMember_eq hslots)]

end Record

end Records

section Everywhere

variable {read : Reader α} {unfolds : Spelling → Spelling → Prop} {spelling other : Spelling}

/-- Both are refused, or both are read to the same, wherever they stand. -/
structure Alike (read : Reader α) (spelling other : Spelling) : Prop where
  nodes : ∀ (room : Nat) (node node' : Node), node.Shows spelling → node'.Shows other →
    (read room node).toOption = (read room node').toOption
  texts : ∀ text text' : String, spelling.HasText text → other.HasText text' →
    (parse read text).toOption = (parse read text').toOption

/-- It is refused, wherever it stands. -/
structure Refused (read : Reader α) (spelling : Spelling) : Prop where
  nodes : ∀ (room : Nat) (node : Node), node.Shows spelling → (read room node).toOption = none
  texts : ∀ text : String, spelling.HasText text → (parse read text).toOption = none

/-- Spellings that unfold to the same are alike. -/
def Interchangeable (read : Reader α) (unfolds : Spelling → Spelling → Prop) : Prop :=
  ∀ spelling other unfolded : Spelling, unfolds spelling unfolded → unfolds other unfolded →
    Alike read spelling other

/-- Notations with the same results can be exchanged. -/
theorem Agrees.interchangeable (h : Agrees read unfolds) (hread : Steady read) :
    Interchangeable read unfolds := by
  intro spelling other unfolded hspelling hother
  have hresult : ∀ room, spelling.result read room = other.result read room := fun room =>
    (h hspelling room).trans (h hother room).symm
  constructor
  · intro room node node' hnode hnode'
    rw [hread.toOption_eq hnode Spelling.fits_self, hread.toOption_eq hnode' Spelling.fits_self,
      hresult]
  · intro text text' htext htext'
    rw [htext.toOption_parse hread, htext'.toOption_parse hread, hresult]

theorem refused_of_result (hread : Steady read) (h : ∀ room, spelling.result read room = none) :
    Refused read spelling := by
  constructor
  · intro room node hnode
    rw [hread.toOption_eq hnode Spelling.fits_self, h]
  · intro text htext
    rw [htext.toOption_parse hread, h]

end Everywhere

end CodeSmells.Json
