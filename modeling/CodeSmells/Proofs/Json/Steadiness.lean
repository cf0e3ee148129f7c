import CodeSmells.Proofs.Json.Fields

/-!
# Readers look at what is written

What a reader finds in a tree hangs on what the tree shows and on the room that is
left, not on the places in it.  It does not hang on the room either if there is
enough for all containers.  So a reader has a result for each spelling, and a text
is read to the result of what it spells.

**Results.**

* `HasText.toOption_parse`: a text is read to the result of its spelling.
* `steady_text`, `steady_natural`, `steady_any` and so on: readers of values that are steady.
* `Steady.list`, `Steady.map`: readers of containers are steady if those of the parts are.
* `toOption_fold`: what members do to a draft, one after the other.
-/

namespace CodeSmells.Json

open Fallible

variable {α σ : Type}

section Outcomes

theorem toOption_settle (place : Nat) (reading : Reading α) :
    (settle place reading).toOption = reading.toOption := by
  cases reading with
  | ok x => rfl
  | error refusal =>
      obtain ⟨cause, place'⟩ := refusal
      cases place' <;> rfl

theorem toOption_refuse (expected : Expected) (node : Node) :
    (refuse expected node : Reading α).toOption = none := by
  cases h : (refuse expected node : Reading α) with
  | error refusal => rfl
  | ok x => exact absurd h not_refuse

theorem toOption_requireField (name : String) (stop : Nat) (field : Option α) :
    (requireField name stop field).toOption = field := by
  cases field <;> rfl

/-- The room inside a container, if it can be entered. -/
def inner? : Nat → Option Nat
  | 0 => none
  | room + 1 => some room

theorem toOption_enter (room start : Nat) (inside : Nat → Reading α) :
    (enter room start inside).toOption = (inner? room).bind fun room => (inside room).toOption := by
  cases room <;> rfl

end Outcomes

section Quotations

/-- The characters that pieces stand for do not hang on where the pieces are. -/
theorem toOption_assemble (stop stop' place place' : Nat) (pieces : List Piece) :
    (Quotation.assemble (.ok stop) place pieces).toOption =
      (Quotation.assemble (.ok stop') place' pieces).toOption := by
  fun_induction Quotation.assemble (.ok stop) place pieces generalizing place' with
  | case1 => rfl
  | case2 _ _ h => cases h
  | case3 _ _ _ ih | case4 _ _ _ ih =>
      rw [Quotation.assemble, toOption_map, toOption_map, ih]
  | case5 _ _ _ htrailing =>
      rw [Quotation.assemble.eq_def]
      simp only [if_pos htrailing]
      rfl
  | case6 _ _ htrailing hleading | case7 _ _ htrailing hleading | case8 _ _ htrailing hleading =>
      rw [Quotation.assemble, if_neg htrailing, if_pos hleading]
      rfl
  | case9 _ _ htrailing hleading _ _ hpair ih =>
      rw [Quotation.assemble, if_neg htrailing, if_pos hleading, if_pos hpair, toOption_map,
        toOption_map, ih]
  | case10 _ _ htrailing hleading _ _ hpair =>
      rw [Quotation.assemble, if_neg htrailing, if_pos hleading, if_neg hpair]
      rfl
  | case11 _ _ _ htrailing hleading ih =>
      rw [Quotation.assemble.eq_def (.ok stop') place']
      simp only [if_neg htrailing, if_neg hleading, toOption_map, ih (place' + 6)]

/-- The text that pieces stand for, if their surrogates come in pairs. -/
def textOf? (pieces : List Piece) : Option String :=
  (Spelling.quotation pieces).read.toOption

theorem toOption_read_quotation (start stop : Nat) (pieces : List Piece) :
    (Quotation.read ⟨start, pieces, .ok stop⟩).toOption = textOf? pieces := by
  simp only [textOf?, Spelling.quotation, Quotation.read, toOption_map]
  rw [toOption_assemble stop 0 _ (0 + 1)]

theorem textOf?_plainPieces (text : String) : textOf? (plainPieces text) = some text := by
  have hassemble : ∀ (chars : List Char) (start stop : Nat),
      Quotation.assemble (.ok stop) start (chars.map .plain) = .ok chars := by
    intro chars
    induction chars with
    | nil => exact fun _ _ => rfl
    | cons c s ih =>
        intro start stop
        rw [List.map_cons, Quotation.assemble, ih]
        rfl
  rw [textOf?, Spelling.quotation, Quotation.read, plainPieces, hassemble]
  simp [Except.map, Except.toOption]

end Quotations

section Readers

/-- What a reader makes of a spelling where there is so much room. -/
def Spelling.result (read : Reader α) (room : Nat) (spelling : Spelling) : Option α :=
  (read room spelling.node).toOption

/-- The rooms are the same, or there is enough of both for all containers. -/
def Spelling.Fits (spelling : Spelling) (room other : Nat) : Prop :=
  room = other ∨ spelling.nesting ≤ room ∧ spelling.nesting ≤ other

/-- The reader finds the same in all trees of a spelling, wherever it fits alike. -/
structure Steady (read : Reader α) : Prop where
  toOption_eq : ∀ {node : Node} {spelling : Spelling} {room other : Nat}, node.Shows spelling →
    spelling.Fits room other → (read room node).toOption = spelling.result read other

variable {read : Reader α} {spelling : Spelling} {room other : Nat}

namespace Spelling

theorem fits_self : spelling.Fits room room :=
  .inl rfl

theorem nesting_le_nestingItems {item : Spelling} {items : List Spelling} (h : item ∈ items) :
    item.nesting ≤ nestingItems items := by
  induction items with
  | nil => cases h
  | cons first rest ih =>
      rw [nestingItems]
      rcases List.mem_cons.1 h with rfl | hrest
      · exact Nat.le_max_left _ _
      · exact Nat.le_trans (ih hrest) (Nat.le_max_right _ _)

theorem nesting_le_nestingMembers {member : List Piece × Spelling}
    {members : List (List Piece × Spelling)} (h : member ∈ members) :
    member.2.nesting ≤ nestingMembers members := by
  induction members with
  | nil => cases h
  | cons first rest ih =>
      rw [nestingMembers]
      rcases List.mem_cons.1 h with rfl | hrest
      · exact Nat.le_max_left _ _
      · exact Nat.le_trans (ih hrest) (Nat.le_max_right _ _)

/-- Neither room is left for a container, or the parts of the container fit alike. -/
theorem Fits.inside {limit : Nat} (hnesting : spelling.nesting = limit + 1)
    (h : spelling.Fits room other) :
    (inner? room = none ∧ inner? other = none) ∨
      ∃ left left', inner? room = some left ∧ inner? other = some left' ∧
        ∀ part : Spelling, part.nesting ≤ limit → part.Fits left left' := by
  rw [Fits, hnesting] at h
  rcases h with rfl | ⟨hroom, hother⟩
  · cases room with
    | zero => exact .inl ⟨rfl, rfl⟩
    | succ room => exact .inr ⟨room, room, rfl, rfl, fun _ _ => .inl rfl⟩
  · obtain ⟨left, rfl⟩ : ∃ n, room = n + 1 := ⟨room - 1, by omega⟩
    obtain ⟨left', rfl⟩ : ∃ n, other = n + 1 := ⟨other - 1, by omega⟩
    refine .inr ⟨left, left', rfl, rfl, fun part hpart => .inr ⟨?_, ?_⟩⟩ <;> omega

theorem Fits.items {items : List Spelling} (h : (array items).Fits room other) :
    (inner? room = none ∧ inner? other = none) ∨
      ∃ left left', inner? room = some left ∧ inner? other = some left' ∧
        ∀ item ∈ items, item.Fits left left' := by
  refine (h.inside (nesting.eq_1 items)).imp_right ?_
  rintro ⟨left, left', hleft, hleft', hparts⟩
  exact ⟨left, left', hleft, hleft', fun item hitem => hparts item (nesting_le_nestingItems hitem)⟩

theorem Fits.members {members : List (List Piece × Spelling)}
    (h : (object members).Fits room other) :
    (inner? room = none ∧ inner? other = none) ∨
      ∃ left left', inner? room = some left ∧ inner? other = some left' ∧
        ∀ member ∈ members, member.2.Fits left left' := by
  refine (h.inside (nesting.eq_2 members)).imp_right ?_
  rintro ⟨left, left', hleft, hleft', hparts⟩
  exact ⟨left, left', hleft, hleft', fun member hmember =>
    hparts member.2 (nesting_le_nestingMembers hmember)⟩

end Spelling

end Readers

section Texts

/-- The text is one of the spelling, with blanks around it. -/
def Spelling.HasText (spelling : Spelling) (text : String) : Prop :=
  ∃ before body after, Blank before ∧ Spells spelling body ∧ Blank after ∧
    text = String.ofList (before ++ (body ++ after))

theorem hasText_of_spells {spelling : Spelling} {body : List Char} (h : Spells spelling body) :
    spelling.HasText (String.ofList body) :=
  ⟨[], body, [], blank_nil, h, blank_nil, by simp⟩

/-- A text is read to the result of its spelling. -/
theorem Spelling.HasText.toOption_parse {spelling : Spelling} {read : Reader α} {text : String}
    (h : spelling.HasText text) (hread : Steady read) :
    (parse read text).toOption = spelling.result read maxDepth := by
  obtain ⟨before, body, after, hbefore, hbody, hafter, rfl⟩ := h
  obtain ⟨root, hscan, hroot⟩ := scan_of_spells hbefore hbody hafter
  rw [← hread.toOption_eq hroot fits_self, parse, toOption_bind]
  simp only [hscan]
  cases (read maxDepth root).toOption <;> rfl

end Texts

section Scalars

theorem steady_text (expected : Expected) : Steady (readText expected) := by
  constructor
  intro node spelling room other hnode _
  cases hnode with
  | text => exact (toOption_read_quotation _ _ _).trans (toOption_read_quotation _ _ _).symm
  | _ => simp [readText, toOption_refuse, Spelling.result, Spelling.node]

theorem toOption_readLiteral (literal : Literal) (stop : Nat) :
    (readLiteral literal stop).toOption = literal.value.toOption := by
  rw [readLiteral]
  cases literal.value <;> rfl

theorem steady_natural : Steady readNatural := by
  constructor
  intro node spelling room other hnode _
  cases hnode with
  | @number literal start stop =>
      simp only [Spelling.result, Spelling.node, readNatural, toOption_bind, toOption_readLiteral]
      refine Option.bind_congr fun value _ => ?_
      cases value with
      | integer n => cases n <;> rfl
      | _ => rfl
  | _ => simp [readNatural, toOption_refuse, Spelling.result, Spelling.node]

theorem steady_optionalBool : Steady (readOptional readBool) := by
  constructor
  intro node spelling room other hnode _
  cases hnode <;>
    simp [readOptional, readBool, toOption_map, toOption_refuse, Spelling.result, Spelling.node]

theorem steady_nothing : Steady readNothing := by
  constructor
  intro node spelling room other hnode _
  cases hnode <;> simp [readNothing, toOption_refuse, Spelling.result, Spelling.node]

end Scalars

section Arrays

variable {read : Reader α} {items : List Spelling} {room other : Nat}

/-- Items are read one by one, up to the last. -/
theorem toOption_readAll {read : Node → Reading α} {found : Items} {stop : Nat}
    {results : Spelling → Option α} (h : found.Shows items (.close stop))
    (hread : ∀ item ∈ items, ∀ node : Node, node.Shows item → (read node).toOption = results item) :
    (found.readAll read).toOption = items.mapM results := by
  induction items generalizing found with
  | nil =>
      cases h with
      | done => rfl
  | cons item items ih =>
      cases h with
      | item hnode hmore =>
          have hrest := ih hmore fun other hother => hread other (List.mem_cons_of_mem item hother)
          rw [Items.readAll, toOption_bind, toOption_settle,
            hread item List.mem_cons_self _ hnode, List.mapM_cons, ← hrest]
          simp only [toOption_bind]
          rfl

/-- An array is read to the results of its items. -/
theorem Steady.toOption_readList (h : Steady read) {node : Node} (hnode : node.Shows (.array items))
    (hfits : (Spelling.array items).Fits room other) :
    (readList read room node).toOption =
      (inner? other).bind fun other => items.mapM (Spelling.result read other) := by
  cases hnode with
  | array hfound =>
      rw [readList, toOption_enter]
      rcases hfits.items with ⟨hroom, hother⟩ | ⟨left, left', hleft, hleft', hitems⟩
      · rw [hroom, hother]
        rfl
      · rw [hleft, hleft']
        exact toOption_readAll hfound fun item hitem node hnode =>
          h.toOption_eq hnode (hitems item hitem)

theorem Steady.result_list (h : Steady read) :
    (Spelling.array items).result (readList read) room =
      (inner? room).bind fun room => items.mapM (Spelling.result read room) :=
  h.toOption_readList (Spelling.shows_node _) Spelling.fits_self

theorem Steady.list (h : Steady read) : Steady (readList read) := by
  constructor
  intro node spelling room other hnode hfits
  cases spelling with
  | array items => rw [h.toOption_readList hnode hfits, h.result_list]
  | _ =>
      cases hnode
      simp [readList, toOption_refuse, Spelling.result, Spelling.node]

end Arrays

section Objects

mutual

/-- What is written without faults can be passed over. -/
theorem Node.skip_of_shows {node : Node} {spelling : Spelling} (h : node.Shows spelling) :
    node.skip = .ok () := by
  cases h with
  | null | bool | number | text => rfl
  | array hfound => exact Items.skip_of_shows hfound
  | object hfound => exact Entries.skip_of_shows hfound

theorem Items.skip_of_shows {found : Items} {items : List Spelling} {stop : Nat}
    (h : found.Shows items (.close stop)) : found.skip = .ok () := by
  cases h with
  | done => rfl
  | item hnode hmore =>
      rw [Items.skip, Node.skip_of_shows hnode, ok_bind, Items.skip_of_shows hmore]

theorem Entries.skip_of_shows {found : Entries} {members : List (List Piece × Spelling)}
    {stop : Nat} (h : found.Shows members (.close stop)) : found.skip = .ok () := by
  cases h with
  | done => rfl
  | entry hnode hmore =>
      rw [Entries.skip, Node.skip_of_shows hnode, Entries.skip_of_shows hmore]
      rfl

end

/-- What a structure does to its draft with the value of a member. -/
def FieldRule.apply (rule : FieldRule σ) (draft : σ) (value : Spelling) : Option σ :=
  match rule with
  | .unknown => some draft
  | .repeated _ => none
  | .known read => (read value.node).toOption

/-- What a structure does to its draft with a member. -/
def takeMember (field : σ → String → FieldRule σ) (draft : σ) (member : List Piece × Spelling) :
    Option σ :=
  (textOf? member.1).bind fun name => (field draft name).apply draft member.2

/-- Two rules do the same with all trees of a value. -/
inductive FieldRule.Alike (value : Spelling) : FieldRule σ → FieldRule σ → Prop
  | unknown : FieldRule.Alike value .unknown .unknown
  | repeated {name : String} : FieldRule.Alike value (.repeated name) (.repeated name)
  | known {read read' : Node → Reading σ} :
      (∀ node : Node, node.Shows value → (read node).toOption = (read' value.node).toOption) →
      FieldRule.Alike value (.known read) (.known read')

/-- Members are taken one after the other. -/
theorem toOption_fold {field field' : σ → String → FieldRule σ}
    {members : List (List Piece × Spelling)} {found : Entries} {stop : Nat} (draft : σ)
    (h : found.Shows members (.close stop))
    (halike : ∀ member ∈ members, ∀ draft name,
      FieldRule.Alike member.2 (field draft name) (field' draft name)) :
    (found.fold field draft).toOption.map Prod.fst = members.foldlM (takeMember field') draft := by
  induction members generalizing found draft with
  | nil =>
      cases h with
      | done => rfl
  | cons member members ih =>
      obtain ⟨key, value⟩ := member
      cases h with
      | @entry start stop _ _ _ node more _ _ _ hnode hmore =>
          have hrest := fun draft =>
            ih draft hmore fun other hother => halike other (List.mem_cons_of_mem _ hother)
          have hkey := toOption_read_quotation start stop key
          rw [List.foldlM_cons, Entries.fold, toOption_bind, hkey, takeMember]
          cases textOf? key with
          | none => rfl
          | some name =>
              have hrule := halike (key, value) List.mem_cons_self draft name
              simp only [Option.bind_some]
              generalize field draft name = rule at hrule ⊢
              generalize field' draft name = rule' at hrule ⊢
              cases hrule with
              | unknown =>
                  simp only [Node.skip_of_shows hnode, ok_bind]
                  exact hrest draft
              | repeated => rfl
              | @known _ read' hread =>
                  simp only [toOption_bind, toOption_settle, hread node hnode, FieldRule.apply]
                  cases (read' value.node).toOption with
                  | none => rfl
                  | some next => exact hrest next

variable {read : Reader α} {members : List (List Piece × Spelling)} {room other : Nat}

/-- An object is read to a map member by member. -/
theorem Steady.toOption_readMap (h : Steady read) {node : Node}
    (hnode : node.Shows (.object members)) (hfits : (Spelling.object members).Fits room other) :
    (readMap read room node).toOption = (inner? other).bind fun other =>
      members.foldlM (takeMember (mapField (read other))) NameMap.empty := by
  cases hnode with
  | @object start stop found _ hfound =>
      have hread : readMap read room (.object start found) = enter room start fun room =>
          (found.fold (mapField (read room)) NameMap.empty).map Prod.fst := rfl
      rw [hread, toOption_enter]
      rcases hfits.members with ⟨hroom, hother⟩ | ⟨left, left', hleft, hleft', hmembers⟩
      · rw [hroom, hother]
        rfl
      · rw [hleft, hleft']
        refine (toOption_map _ _).trans (toOption_fold _ hfound ?_)
        intro member hmember map name
        refine .known fun node hnode => ?_
        rw [toOption_map, toOption_map, h.toOption_eq hnode (hmembers member hmember)]
        rfl

theorem Steady.result_map (h : Steady read) :
    (Spelling.object members).result (readMap read) room = (inner? room).bind fun room =>
      members.foldlM (takeMember (mapField (read room))) NameMap.empty :=
  h.toOption_readMap (Spelling.shows_node _) Spelling.fits_self

theorem Steady.map (h : Steady read) : Steady (readMap read) := by
  constructor
  intro node spelling room other hnode hfits
  cases spelling with
  | object members => rw [h.toOption_readMap hnode hfits, h.result_map]
  | _ =>
      cases hnode
      simp [readMap, toOption_refuse, Spelling.result, Spelling.node]

end Objects

section AnyValue

variable {room other : Nat} {items : List Spelling} {members : List (List Piece × Spelling)}

/-- The items of any value are read as those of a sequence. -/
theorem toOption_readAnyItems (room : Nat) : ∀ found : Items,
    (readAnyItems room found).toOption = (found.readAll (readAny room)).toOption
  | .close _ => rfl
  | .broken _ => rfl
  | .item value after more => by
      simp only [readAnyItems, Items.readAll, toOption_bind, toOption_settle,
        toOption_readAnyItems room more]

/-- The result of a member of any value. -/
def memberResult (room : Nat) (member : List Piece × Spelling) : Option (String × Json) :=
  (textOf? member.1).bind fun name => (member.2.result readAny room).map fun value => (name, value)

theorem toOption_readAnyMembers {found : Entries} {stop : Nat}
    (h : found.Shows members (.close stop))
    (hread : ∀ member ∈ members, ∀ node : Node, node.Shows member.2 →
      (readAny room node).toOption = member.2.result readAny other) :
    (readAnyMembers room found).toOption = members.mapM (memberResult other) := by
  induction members generalizing found with
  | nil =>
      cases h with
      | done => rfl
  | cons member members ih =>
      cases h with
      | @entry start stop _ _ key node more _ value _ hnode hmore =>
          have hrest := ih hmore fun other hother => hread other (List.mem_cons_of_mem _ hother)
          rw [readAnyMembers, List.mapM_cons, ← hrest, memberResult]
          simp only [toOption_bind, toOption_read_quotation]
          cases textOf? key with
          | none => rfl
          | some name =>
              rw [← hread (key, value) List.mem_cons_self node hnode]
              cases (readAny room node).toOption <;> rfl

/-- An array is read to the values of its items, as any value is. -/
theorem toOption_readAny_array {node : Node} (hnode : node.Shows (.array items))
    (hfits : (Spelling.array items).Fits room other)
    (hread : ∀ item ∈ items, ∀ {node : Node} {room other : Nat}, node.Shows item →
      item.Fits room other → (readAny room node).toOption = item.result readAny other) :
    (readAny room node).toOption =
      (inner? other).bind fun other => (items.mapM (Spelling.result readAny other)).map .array := by
  cases hnode with
  | @array start stop found _ hfound =>
      have henter : readAny room (.array start found) =
          enter room start fun room => (readAnyItems room found).map .array := by
        cases room <;> rfl
      rw [henter, toOption_enter]
      rcases hfits.items with ⟨hroom, hother⟩ | ⟨left, left', hleft, hleft', hitems⟩
      · rw [hroom, hother]
        rfl
      · rw [hleft, hleft']
        simp only [Option.bind_some, toOption_map, toOption_readAnyItems]
        rw [toOption_readAll hfound fun item hitem node hnode =>
          hread item hitem hnode (hitems item hitem)]

/-- An object is read to the values of its members, as any value is. -/
theorem toOption_readAny_object {node : Node} (hnode : node.Shows (.object members))
    (hfits : (Spelling.object members).Fits room other)
    (hread : ∀ member ∈ members, ∀ {node : Node} {room other : Nat}, node.Shows member.2 →
      member.2.Fits room other → (readAny room node).toOption = member.2.result readAny other) :
    (readAny room node).toOption =
      (inner? other).bind fun other => (members.mapM (memberResult other)).map .object := by
  cases hnode with
  | @object start stop found _ hfound =>
      have henter : readAny room (.object start found) =
          enter room start fun room => (readAnyMembers room found).map .object := by
        cases room <;> rfl
      rw [henter, toOption_enter]
      rcases hfits.members with ⟨hroom, hother⟩ | ⟨left, left', hleft, hleft', hmembers⟩
      · rw [hroom, hother]
        rfl
      · rw [hleft, hleft']
        simp only [Option.bind_some, toOption_map]
        rw [toOption_readAnyMembers hfound fun member hmember node hnode =>
          hread member hmember hnode (hmembers member hmember)]

theorem steady_any : Steady readAny := by
  constructor
  intro node spelling room other hnode hfits
  induction spelling using Spelling.induction_on generalizing node room other with
  | null | bool =>
      cases hnode
      rfl
  | number literal =>
      cases hnode
      exact (toOption_readLiteral _ _).trans (toOption_readLiteral _ _).symm
  | text pieces =>
      cases hnode
      simp only [Spelling.result, Spelling.node, readAny, toOption_map, Spelling.quotation,
        toOption_read_quotation]
  | array items ih =>
      rw [toOption_readAny_array hnode hfits ih, Spelling.result,
        toOption_readAny_array (Spelling.shows_node _) Spelling.fits_self ih]
  | object members ih =>
      rw [toOption_readAny_object hnode hfits ih, Spelling.result,
        toOption_readAny_object (Spelling.shows_node _) Spelling.fits_self ih]

end AnyValue

end CodeSmells.Json
