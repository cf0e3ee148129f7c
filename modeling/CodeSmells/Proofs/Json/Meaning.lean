import CodeSmells.Proofs.Json.Reading
import CodeSmells.Proofs.Json.Results
import CodeSmells.Proofs.Json.Scanning

/-!
# What readers make of values

A reader meets a value in a text, but what it makes of the value does not hang on
the text: not on blanks, on the way characters and numbers are written or on the
containers around the value, as long as it can be read at all.  So each reader has
a meaning, a relation between JSON values and results.

The members of an object that is read into a structure may stand in any order.
What counts are the values under the names of each field, of which there may be
one at most.

**Results.**

* `Node.skip_of_holds`: a value without faults can be passed over.
* `parse_iff`: a text of a value is read to what the value means.
* `ReadsAs.accepted`: a value means the same everywhere as it means alone.
* `readsAs_text`, `readsAs_natural`, `readsAs_list` and so on: what readers mean.
-/

namespace CodeSmells.Json

open Fallible

section Skipping

theorem afterLeading_ne_ok {place : Nat} {ending : Except Fault Nat} {chars : List Char} :
    Quotation.afterLeading place ending ≠ .ok chars := by
  intro h
  unfold Quotation.afterLeading at h
  split at h
  · cases h
  · split at h <;> cases h

/-- A quotation that is read has an end. -/
theorem exists_ending_of_assemble {ending : Except Fault Nat} {place : Nat}
    {pieces : List Piece} {chars : List Char}
    (h : Quotation.assemble ending place pieces = .ok chars) : ∃ stop, ending = .ok stop := by
  fun_induction Quotation.assemble ending place pieces generalizing chars with
  | case1 place stop hending => exact ⟨stop, hending⟩
  | case2 | case5 | case7 | case8 | case10 => cases h
  | case6 => exact absurd h afterLeading_ne_ok
  | case3 _ _ _ ih | case4 _ _ _ ih | case9 _ _ _ _ _ _ _ ih | case11 _ _ _ _ _ ih =>
      obtain ⟨more, hmore, -⟩ := map_eq_ok_iff.1 h
      exact ih hmore

theorem Quotation.skip_of_read {quotation : Quotation} {content : String}
    (h : quotation.read = .ok content) : quotation.skip = .ok () := by
  obtain ⟨chars, hchars, -⟩ := map_eq_ok_iff.1 h
  obtain ⟨stop, hstop⟩ := exists_ending_of_assemble hchars
  rw [skip, hstop]

mutual

/-- A value without faults can be passed over. -/
theorem Node.skip_of_holds {node : Node} {value : Json} (h : node.Holds value) :
    node.skip = .ok () := by
  cases h with
  | null | bool | integer | real => rfl
  | text hread => exact Quotation.skip_of_read hread
  | array hitems => exact Items.skip_of_holds hitems
  | object hentries => exact Entries.skip_of_holds hentries

theorem Items.skip_of_holds {items : Items} {values : List Json} (h : items.Holds values) :
    items.skip = .ok () := by
  cases h with
  | close => rfl
  | item hnode hmore =>
      rw [Items.skip, Node.skip_of_holds hnode, ok_bind, Items.skip_of_holds hmore]

theorem Entries.skip_of_holds {entries : Entries} {members : List (String × Json)}
    (h : entries.Holds members) : entries.skip = .ok () := by
  cases h with
  | close => rfl
  | entry hkey hnode hmore =>
      rw [Entries.skip, Quotation.skip_of_read hkey, ok_bind, Node.skip_of_holds hnode, ok_bind,
        Entries.skip_of_holds hmore]

end

end Skipping

section Documents

variable {α : Type} {read : Reader α} {value : Json} {text : String} {room : Nat}

/-- The text holds the value and blanks around it. -/
def HasText (value : Json) (text : String) : Prop :=
  ∃ before body after, Blank before ∧ Writes value body ∧ Blank after ∧
    text = String.ofList (before ++ (body ++ after))

theorem hasText_of_writes {body : List Char} (h : Writes value body) :
    value.HasText (String.ofList body) :=
  ⟨[], body, [], blank_nil, h, blank_nil, by rw [List.nil_append, List.append_nil]⟩

/-- The value has a text, and there is room for it in what is left of the depth of containers. -/
structure IsReadable (room : Nat) (value : Json) : Prop where
  written : ∃ body, Writes value body
  nesting : value.nesting ≤ room
  room : room ≤ maxDepth

theorem HasText.isReadable (h : HasText value text) (hnesting : value.nesting ≤ maxDepth) :
    IsReadable maxDepth value := by
  obtain ⟨before, body, after, -, hbody, -, -⟩ := h
  exact ⟨⟨body, hbody⟩, hnesting, Nat.le_refl _⟩

theorem exists_text_of_mem_items {first : Bool} {items : List Json} {body : List Char}
    (h : WritesItems first items body) : ∀ v ∈ items, ∃ body, Writes v body := by
  induction items generalizing first body with
  | nil =>
      intro v hv
      cases hv
  | cons item items ih =>
      cases h with
      | item _ hitem hmore =>
          intro v hv
          rcases List.mem_cons.1 hv with rfl | hmem
          · exact ⟨_, hitem⟩
          · exact ih hmore v hmem

theorem exists_text_of_mem_members {first : Bool} {members : List (String × Json)}
    {body : List Char} (h : WritesMembers first members body) :
    ∀ e ∈ members, ∃ body, Writes e.2 body := by
  induction members generalizing first body with
  | nil =>
      intro e he
      cases he
  | cons member members ih =>
      cases h with
      | member _ _ _ _ hvalue hmore =>
          intro e he
          rcases List.mem_cons.1 he with rfl | hmem
          · exact ⟨_, hvalue⟩
          · exact ih hmore e hmem

/-- The items of an array can be read where there is room for one container less. -/
theorem IsReadable.items {items : List Json} (h : IsReadable room (.array items)) :
    ∃ inner, room = inner + 1 ∧ ∀ v ∈ items, IsReadable inner v := by
  obtain ⟨⟨body, hbody⟩, hnesting, hroom⟩ := h
  rw [Json.nesting] at hnesting
  obtain ⟨inner, rfl⟩ : ∃ n, room = n + 1 := ⟨room - 1, by omega⟩
  refine ⟨inner, rfl, fun v hv => ?_⟩
  cases hbody with
  | array hitems =>
      exact ⟨exists_text_of_mem_items hitems v hv,
        nestingItems_le_iff.1 (Nat.le_of_succ_le_succ hnesting) v hv, by omega⟩

theorem IsReadable.members {members : List (String × Json)}
    (h : IsReadable room (.object members)) :
    ∃ inner, room = inner + 1 ∧ ∀ e ∈ members, IsReadable inner e.2 := by
  obtain ⟨⟨body, hbody⟩, hnesting, hroom⟩ := h
  rw [Json.nesting] at hnesting
  obtain ⟨inner, rfl⟩ : ∃ n, room = n + 1 := ⟨room - 1, by omega⟩
  refine ⟨inner, rfl, fun e he => ?_⟩
  cases hbody with
  | object hmembers =>
      exact ⟨exists_text_of_mem_members hmembers e he,
        nestingMembers_le_iff.1 (Nat.le_of_succ_le_succ hnesting) e he, by omega⟩

/-- The results that a reader makes of a value, wherever it stands and however it is written. -/
def Means (read : Reader α) (value : Json) (results : α → Prop) : Prop :=
  ∀ {room : Nat} {node : Node}, node.Holds value → IsReadable room value →
    ∀ x, read room node = .ok x ↔ results x

/-- What a reader makes of all values. -/
def ReadsAs (read : Reader α) (meaning : Json → α → Prop) : Prop :=
  ∀ value, Means read value (meaning value)

/-- A text of a value is read as the one tree of the value in it is. -/
theorem parse_iff {results : α → Prop} (hread : Means read value results)
    (h : value.HasText text) (hnesting : value.nesting ≤ maxDepth) (x : α) :
    parse read text = .ok x ↔ results x := by
  have hreadable := h.isReadable hnesting
  obtain ⟨before, body, after, hbefore, hbody, hafter, rfl⟩ := h
  obtain ⟨root, hscan, hroot⟩ := scan_of_writes hbefore hbody hafter
  rw [← hread hroot hreadable x]
  simp only [parse, hscan, bind_eq_ok_iff, Except.ok.injEq, exists_eq_right]

/-- A text of the value alone is read to the result. -/
def Accepted (read : Reader α) (value : Json) (x : α) : Prop :=
  ∃ text, value.HasText text ∧ parse read text = .ok x

/-- What a value that can be read is accepted as is what it means. -/
theorem ReadsAs.accepted_iff {meaning : Json → α → Prop} (h : ReadsAs read meaning)
    (hreadable : IsReadable room value) (x : α) : Accepted read value x ↔ meaning value x := by
  have hnesting := Nat.le_trans hreadable.nesting hreadable.room
  constructor
  · rintro ⟨text, htext, hparse⟩
    exact (parse_iff (h value) htext hnesting x).1 hparse
  · intro hmeaning
    obtain ⟨body, hbody⟩ := hreadable.written
    have htext := hasText_of_writes hbody
    exact ⟨_, htext, (parse_iff (h value) htext hnesting x).2 hmeaning⟩

/-- A value means the same everywhere as it means alone. -/
theorem ReadsAs.accepted {meaning : Json → α → Prop} (h : ReadsAs read meaning) :
    ReadsAs read (Accepted read) := by
  intro value room node hnode hreadable x
  rw [h value hnode hreadable, h.accepted_iff hreadable]

end Documents

section Scalars

/-- A text means what it says. -/
def TextOf (value : Json) (content : String) : Prop :=
  value = .text content

theorem readsAs_text (expected : Expected) : ReadsAs (readText expected) TextOf := by
  intro value room node hnode _ x
  cases hnode with
  | text hread => simp [readText, hread, TextOf]
  | _ => simp [readText, not_refuse, TextOf]

/-- A whole number means itself. -/
def NaturalOf (value : Json) (n : Nat) : Prop :=
  value = .natural n

theorem readsAs_natural : ReadsAs readNatural NaturalOf := by
  intro value room node hnode _ x
  cases hnode with
  | @integer n _ _ _ hvalue =>
      rw [readNatural, readLiteral, hvalue, ok_bind]
      cases n with
      | ofNat n =>
          simp only [NaturalOf, natural, Except.ok.injEq, Json.integer.injEq,
            Int.ofNat_eq_natCast, Int.natCast_inj]
      | negSucc n => simp [NaturalOf, natural, refuseAt]
  | real hvalue =>
      rw [readNatural, readLiteral, hvalue, ok_bind]
      simp [NaturalOf, natural, refuseAt]
  | _ => simp [readNatural, not_refuse, NaturalOf, natural]

/-- A truth value, or `null` where there is none. -/
def OptionalBool (value : Json) (x : Option Bool) : Prop :=
  value = x.elim .null .bool

theorem readsAs_optionalBool : ReadsAs (readOptional readBool) OptionalBool := by
  intro value room node hnode _ x
  cases hnode <;> cases x <;>
    simp [readOptional, readBool, map_eq_ok_iff, not_refuse, OptionalBool]

theorem readsAs_nothing : ReadsAs readNothing fun value _ => value = .null := by
  intro value room node hnode _ x
  cases hnode <;> simp [readNothing, not_refuse]

theorem readsAs_any : ReadsAs readAny Eq := by
  intro value room node hnode hreadable x
  rw [readAny_of_holds hnode hreadable.nesting, Except.ok.injEq]

end Scalars

section Arrays

variable {α : Type} {read : Reader α} {meaning : Json → α → Prop}

theorem readAll_iff {read : Node → Reading α} {items : Items} {values : List Json}
    (h : items.Holds values)
    (hread : ∀ v ∈ values, ∀ node : Node, node.Holds v → ∀ x, read node = .ok x ↔ meaning v x)
    (xs : List α) : items.readAll read = .ok xs ↔ List.Forall₂ meaning values xs := by
  induction values generalizing items xs with
  | nil =>
      cases h with
      | close => simp [Items.readAll, eq_comm]
  | cons value values ih =>
      cases h with
      | item hnode hmore =>
          have hfirst := hread value (by simp) _ hnode
          have hrest := ih hmore fun v hv => hread v (by simp [hv])
          rw [List.forall₂_cons_left_iff]
          simp only [Items.readAll, bind_eq_ok_iff, settle_eq_ok_iff, hfirst, hrest]
          constructor
          · rintro ⟨x, hx, xs, hxs, hall⟩
            exact ⟨x, xs, hx, hxs, (Except.ok.inj hall).symm⟩
          · rintro ⟨x, xs, hx, hxs, rfl⟩
            exact ⟨x, hx, xs, hxs, rfl⟩

/-- An array is read item by item. -/
theorem means_list {items : List Json} (h : ∀ v ∈ items, Means read v (meaning v)) :
    Means (readList read) (.array items) (List.Forall₂ meaning items) := by
  intro room node hnode hreadable xs
  obtain ⟨inner, rfl, hitems⟩ := hreadable.items
  cases hnode with
  | array hholds => exact readAll_iff hholds (fun v hv _ hv' => h v hv hv' (hitems v hv)) xs

/-- The value is an array whose items mean these, one by one. -/
def ArrayOf (meaning : Json → α → Prop) (value : Json) (xs : List α) : Prop :=
  ∃ items, value = .array items ∧ List.Forall₂ meaning items xs

theorem readsAs_list (h : ReadsAs read meaning) :
    ReadsAs (readList read) (ArrayOf meaning) := by
  intro value room node hnode hreadable xs
  cases value with
  | array items =>
      rw [means_list (fun v _ => h v) hnode hreadable]
      simp [ArrayOf]
  | _ =>
      cases hnode
      simp [readList, not_refuse, ArrayOf]

theorem exists_forall₂_iff {β : Type} {r : β → α → Prop} {ys : List β} :
    (∃ xs, List.Forall₂ r ys xs) ↔ ∀ y ∈ ys, ∃ x, r y x := by
  induction ys with
  | nil => simp
  | cons y ys ih =>
      rw [List.forall_mem_cons, ← ih]
      constructor
      · rintro ⟨_, hall⟩
        cases hall with
        | cons hfirst hrest => exact ⟨⟨_, hfirst⟩, ⟨_, hrest⟩⟩
      · rintro ⟨⟨x, hfirst⟩, ⟨xs, hrest⟩⟩
        exact ⟨x :: xs, .cons hfirst hrest⟩

theorem exists_arrayOf_iff {value : Json} :
    (∃ xs, ArrayOf meaning value xs) ↔
      ∃ items, value = .array items ∧ ∀ item ∈ items, ∃ x, meaning item x := by
  simp only [← exists_forall₂_iff]
  constructor
  · rintro ⟨xs, items, rfl, hitems⟩
    exact ⟨items, rfl, xs, hitems⟩
  · rintro ⟨items, rfl, xs, hitems⟩
    exact ⟨xs, items, rfl, hitems⟩

end Arrays

end CodeSmells.Json
