import CodeSmells.Proofs.Json.Printing
import CodeSmells.Proofs.Json.Reading
import CodeSmells.Proofs.Json.Results
import CodeSmells.Proofs.Json.Scanning

/-!
# Values that come back from their texts

A value whose numbers are integers of 64 bits is read back from its texts.  A decoder
takes things out of it, those in objects by their names, so that it does not matter
whether members stand as they were written or in the order of their names.

**Results.**

* `IsWhole.parse_compact`, `IsWhole.parse_pretty`: a value is read back from its texts.
* `decodes_list`, `decodes_map`, `decodes_field`: decoders of containers and of members.
-/

namespace CodeSmells.Json

section Documents

/-- Numbers inside the value are integers of 64 bits, and there is room for its containers. -/
structure IsWhole (room : Nat) (value : Json) : Prop where
  bounded : IsBounded room value
  real : ∀ x, ¬ Inside (.real x) value

variable {room : Nat} {value : Json}

theorem IsWhole.mono {more : Nat} (h : IsWhole room value) (hle : room ≤ more) :
    IsWhole more value :=
  ⟨⟨h.bounded.integers, Nat.le_trans h.bounded.nesting hle⟩, h.real⟩

theorem isWhole_text (content : String) : IsWhole room (.text content) := by
  refine ⟨isBounded_leaf (by simp) (by simp) (by simp), fun x hx => ?_⟩
  cases hx

theorem isWhole_natural {n : Nat} (h : n < 2 ^ 64) : IsWhole room (.natural n) := by
  refine ⟨IsNumber64.isBounded (.inl ⟨n, rfl, by omega, by omega⟩), fun x hx => ?_⟩
  cases hx

theorem IsWhole.array {items : List Json} (h : ∀ v ∈ items, IsWhole room v) :
    IsWhole (room + 1) (.array items) := by
  refine ⟨IsBounded.array fun v hv => (h v hv).bounded, fun x hx => ?_⟩
  cases hx with
  | item hmem hinside => exact (h _ hmem).real x hinside

theorem IsWhole.object {members : List (String × Json)} (h : ∀ e ∈ members, IsWhole room e.2) :
    IsWhole (room + 1) (.object members) := by
  refine ⟨IsBounded.object fun e he => (h e he).bounded, fun x hx => ?_⟩
  cases hx with
  | member hmem hinside => exact (h _ hmem).real x hinside

/-- Such a value is laid out as a text of it. -/
theorem IsWhole.writes_pretty (h : IsWhole room value) : Writes value value.pretty.toList := by
  rw [pretty, String.toList_ofList]
  exact writes_layOut value h.real h.bounded.integers 0

/-- It is read back from its text without blanks. -/
theorem IsWhole.parse_compact (h : IsWhole maxDepth value) :
    parse readAny value.compact = .ok value :=
  Json.parse_compact (writes_render value h.real h.bounded.integers)
    fun _ hnode => readAny_of_holds hnode h.bounded.nesting

/-- It is read back from its text on many lines, with a line end behind it. -/
theorem IsWhole.parse_pretty (h : IsWhole maxDepth value) :
    parse readAny (value.pretty ++ "\n") = .ok value := by
  have hblank : Blank ['\n'] := by
    intro c hc
    rw [List.mem_singleton.1 hc]
    decide
  have hparse : parse readAny (String.ofList ([] ++ (value.pretty.toList ++ ['\n']))) = .ok value :=
    parse_of_writes blank_nil h.writes_pretty hblank
      fun _ hnode => readAny_of_holds hnode h.bounded.nesting
  rw [List.nil_append, String.ofList_append, String.ofList_toList] at hparse
  exact hparse

end Documents

section Decoders

variable {α : Type}

/-- The value under a name of an object. -/
def member? (name : String) : Json → Option Json
  | .object members => (members.find? fun e => e.1 == name).map Prod.snd
  | _ => none

def text? : Json → Option String
  | .text content => some content
  | _ => none

def natural? : Json → Option Nat
  | .integer (.ofNat n) => some n
  | _ => none

def list? (item : Json → Option α) : Json → Option (List α)
  | .array items => items.mapM item
  | _ => none

def map? (item : Json → Option α) : Json → Option (NameMap α)
  | .object members =>
      (members.mapM fun e => (item e.2).map fun x => (e.1, x)).map NameMap.ofList
  | _ => none

/-- What is decoded from the value under a name. -/
def field? (name : String) (decode : Json → Option α) (value : Json) : Option α :=
  (value.member? name).bind decode

end Decoders

section Decoding

variable {α : Type} {decode : Json → Option α}

/-- A value is decoded as it was written, and with its members sorted. -/
structure Decodes (decode : Json → Option α) (value : Json) (x : α) : Prop where
  written : decode value = some x
  sorted : decode value.sortMembers = some x

theorem decodes_text (content : String) : Decodes text? (.text content) content :=
  ⟨rfl, rfl⟩

theorem decodes_natural (n : Nat) : Decodes natural? (.natural n) n :=
  ⟨rfl, rfl⟩

theorem mapM_eq_some {β γ : Type} {f : β → Option γ} {g : γ → β} {xs : List γ}
    (h : ∀ x ∈ xs, f (g x) = some x) : (xs.map g).mapM f = some xs := by
  induction xs with
  | nil => rfl
  | cons x xs ih =>
      have hrest := ih fun y hy => h y (List.mem_cons_of_mem x hy)
      rw [List.map_cons, List.mapM_cons, h x List.mem_cons_self, hrest]
      rfl

/-- A list is decoded item by item. -/
theorem decodes_list {toJson : α → Json} {xs : List α}
    (h : ∀ x ∈ xs, Decodes decode (toJson x) x) :
    Decodes (list? decode) (.array (xs.map toJson)) xs := by
  constructor
  · exact mapM_eq_some fun x hx => (h x hx).written
  · rw [sortMembers, sortItems_eq_map, List.map_map]
    exact mapM_eq_some fun x hx => (h x hx).sorted

/-- A map is decoded entry by entry. -/
theorem decodes_map {toJson : α → Json} (map : NameMap α)
    (h : ∀ x, Decodes decode (toJson x) x) :
    Decodes (map? decode) (ofMap toJson map.entries) map := by
  have hmap : NameMap.ofList map.entries = map := NameMap.foldl_insert_entries map
  let decodeEntry (e : String × Json) : Option (String × α) :=
    (decode e.2).map fun x => (e.1, x)
  constructor
  · have hentries : (map.entries.map fun e => (e.1, toJson e.2)).mapM decodeEntry =
        some map.entries := by
      refine mapM_eq_some fun e _ => ?_
      simp only [decodeEntry, (h e.2).written, Option.map_some]
    rw [ofMap, map?, hentries, Option.map_some, hmap]
  · have hvalues : sortValues (map.entries.map fun e => (e.1, toJson e.2)) =
        map.entries.map fun e => (e.1, (toJson e.2).sortMembers) := by
      rw [sortValues_eq_map, List.map_map]
      rfl
    -- The entries of a map stand in the order of their names already.
    have hsorted : SortedNames (map.entries.map fun e => (e.1, (toJson e.2).sortMembers)) :=
      List.pairwise_map.2 map.sorted
    have hentries : (map.entries.map fun e => (e.1, (toJson e.2).sortMembers)).mapM decodeEntry =
        some map.entries := by
      refine mapM_eq_some fun e _ => ?_
      simp only [decodeEntry, (h e.2).sorted, Option.map_some]
    rw [ofMap, sortMembers, hvalues, NameMap.entries_ofList hsorted, map?, hentries,
      Option.map_some, hmap]

/-- The value under a name that stands once in an object is decoded. -/
theorem decodes_field {members : List (String × Json)} {name : String} {value : Json} {x : α}
    (hnodup : (members.map Prod.fst).Nodup) (hmem : (name, value) ∈ members)
    (h : Decodes decode value x) : Decodes (field? name decode) (.object members) x := by
  constructor
  · rw [field?, member?, find?_of_nodup hnodup hmem]
    exact h.written
  · have hvalues : (sortValues members).map Prod.fst = members.map Prod.fst := by
      rw [sortValues_eq_map, List.map_map]
      rfl
    have hsorted : (name, value.sortMembers) ∈ sortValues members := by
      rw [sortValues_eq_map]
      exact List.mem_map.2 ⟨(name, value), hmem, rfl⟩
    have hget := NameMap.get?_ofList (hvalues ▸ hnodup) hsorted
    rw [NameMap.get?] at hget
    rw [sortMembers, field?, member?, hget]
    exact h.sorted

end Decoding

end CodeSmells.Json
