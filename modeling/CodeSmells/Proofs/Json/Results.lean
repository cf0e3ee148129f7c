import CodeSmells.Proofs.Fallible
import CodeSmells.Proofs.Json.Values

/-!
# From results back to what was read

When a reader of containers succeeds, so did the readers of their parts.  What
holds of everything that the parts are read to then holds inside the result.

**Results.**

* `not_refuse`, `enter_eq_ok_iff`: nodes that are refused and containers that are entered.
* `exists_of_readList`, `fold_preserves`: the parts of a sequence and of an object.
* `isNumber64_of_literal`: integers that are read have 64 bits.
* `isBounded_of_readAny`: any value that is read is nested no deeper than there was room.
-/

namespace CodeSmells.Json

open Fallible

section Parts

variable {α : Type}

/-- A node that is refused is read to nothing. -/
theorem not_refuse {expected : Expected} {node : Node} {x : α} :
    refuse expected node ≠ .ok x := by
  intro h
  cases node with
  | number literal start stop =>
      obtain ⟨value, -, hvalue⟩ := bind_eq_ok_iff.1 h
      cases hvalue
  | text content =>
      obtain ⟨value, -, hvalue⟩ := bind_eq_ok_iff.1 h
      cases hvalue
  | _ => cases h

theorem enter_eq_ok_iff {room start : Nat} {inside : Nat → Reading α} {x : α} :
    enter room start inside = .ok x ↔ ∃ inner, room = inner + 1 ∧ inside inner = .ok x := by
  cases room with
  | zero =>
      constructor
      · intro h
        cases h
      · rintro ⟨inner, hroom, -⟩
        cases hroom
  | succ room =>
      constructor
      · intro h
        exact ⟨room, rfl, h⟩
      · rintro ⟨inner, hroom, h⟩
        cases hroom
        exact h

theorem settle_eq_ok_iff {place : Nat} {reading : Reading α} {x : α} :
    settle place reading = .ok x ↔ reading = .ok x := by
  cases reading with
  | ok y => rfl
  | error refusal =>
      obtain ⟨cause, place'⟩ := refusal
      cases place' <;> simp [settle]

theorem requireField_eq_ok_iff {name : String} {stop : Nat} {field : Option α} {x : α} :
    requireField name stop field = .ok x ↔ field = some x := by
  cases field with
  | none =>
      constructor
      · intro h
        cases h
      · intro h
        cases h
  | some y => simp [requireField]

/-- Each item of a result was read from a node. -/
theorem exists_of_readAll {read : Node → Reading α} {items : Items} {values : List α}
    (h : items.readAll read = .ok values) : ∀ x ∈ values, ∃ node, read node = .ok x := by
  induction values generalizing items with
  | nil => simp
  | cons x values ih =>
      cases items with
      | close => cases h
      | broken => cases h
      | item node after more =>
          rw [Items.readAll] at h
          obtain ⟨first, hfirst, h⟩ := bind_eq_ok_iff.1 h
          obtain ⟨rest, hrest, h⟩ := bind_eq_ok_iff.1 h
          cases h
          intro y hy
          rcases List.mem_cons.1 hy with rfl | hmem
          · exact ⟨node, settle_eq_ok_iff.1 hfirst⟩
          · exact ih hrest y hmem

theorem exists_of_readList {read : Reader α} {room : Nat} {node : Node} {values : List α}
    (h : readList read room node = .ok values) :
    ∃ inner, room = inner + 1 ∧ ∀ x ∈ values, ∃ item, read inner item = .ok x := by
  unfold readList at h
  split at h
  next =>
      obtain ⟨inner, hroom, hitems⟩ := enter_eq_ok_iff.1 h
      exact ⟨inner, hroom, exists_of_readAll hitems⟩
  next => exact absurd h not_refuse

theorem exists_of_next {read : Node → Reading α} {items more : Items} {x : α}
    (h : items.next read = .ok (some x, more)) : ∃ node, read node = .ok x := by
  cases items with
  | close => cases h
  | broken => cases h
  | item node after rest =>
      obtain ⟨first, hfirst, h⟩ := map_eq_ok_iff.1 h
      cases h
      exact ⟨node, settle_eq_ok_iff.1 hfirst⟩

theorem exists_of_required {expected : Expected} {index : Nat} {read : Node → Reading α}
    {items more : Items} {x : α} (h : items.required expected index read = .ok (x, more)) :
    ∃ node, read node = .ok x := by
  cases items with
  | close => cases h
  | broken => cases h
  | item node after rest =>
      obtain ⟨first, hfirst, h⟩ := map_eq_ok_iff.1 h
      cases h
      exact ⟨node, settle_eq_ok_iff.1 hfirst⟩

/-- What every member that is read keeps true of the draft is true in the end. -/
theorem fold_preserves {σ : Type} {field : σ → String → FieldRule σ} {P : σ → Prop}
    (hstep : ∀ draft name read node draft', field draft name = .known read → P draft →
      read node = .ok draft' → P draft')
    (entries : Entries) {draft draft' : σ} {stop : Nat} (hdraft : P draft)
    (h : entries.fold field draft = .ok (draft', stop)) : P draft' := by
  match entries with
  | .close _ =>
      cases h
      exact hdraft
  | .broken _ => cases h
  | .keyless _ _ => cases h
  | .colonless key afterKey fault =>
      rw [Entries.fold] at h
      obtain ⟨name, -, h⟩ := bind_eq_ok_iff.1 h
      cases hfield : field draft name <;> rw [hfield] at h <;> cases h
  | .entry key afterKey value after more =>
      rw [Entries.fold] at h
      obtain ⟨name, -, h⟩ := bind_eq_ok_iff.1 h
      cases hfield : field draft name with
      | repeated =>
          rw [hfield] at h
          cases h
      | unknown =>
          rw [hfield] at h
          obtain ⟨-, -, h⟩ := bind_eq_ok_iff.1 h
          exact fold_preserves hstep more hdraft h
      | known read =>
          rw [hfield] at h
          obtain ⟨next, hnext, h⟩ := bind_eq_ok_iff.1 h
          have hread : read value = .ok next := settle_eq_ok_iff.1 hnext
          exact fold_preserves hstep more (hstep draft name read value next hfield hdraft hread) h

end Parts

section Bounds

/-- Digits are gathered below the bound. -/
theorem gather_lt {bound n : Nat} (digits : List Nat) (h : n < bound) :
    (Literal.gather bound n digits).1 < bound := by
  induction digits generalizing n with
  | nil => exact h
  | cons d digits ih =>
      rw [Literal.gather]
      by_cases hd : n * 10 + d < bound
      · rw [if_pos hd]
        exact ih hd
      · rw [if_neg hd]
        exact h

/-- A number that is read is an integer of 64 bits or a fraction. -/
def IsNumber64 (value : Json) : Prop :=
  (∃ n, value = .integer n ∧ -2 ^ 63 ≤ n ∧ n < 2 ^ 64) ∨ ∃ x, value = .real x

theorem isNumber64_signed (negative : Bool) (x : Binary64) :
    IsNumber64 (Literal.signed negative x) :=
  .inr ⟨_, rfl⟩

theorem isNumber64_wholeValue (negative : Bool) {significand : Nat}
    (h : significand < Nat.pow 2 64) : IsNumber64 (Literal.wholeValue negative significand) := by
  have htwo64 : Nat.pow 2 64 = 2 ^ 64 := rfl
  have htwo63 : Nat.pow 2 63 = 2 ^ 63 := rfl
  rw [Literal.wholeValue]
  cases negative with
  | false => exact .inl ⟨significand, rfl, by omega, by omega⟩
  | true =>
      rw [if_neg (by decide)]
      by_cases hreal : significand = 0 ∨ Nat.pow 2 63 < significand
      · rw [if_pos hreal]
        exact isNumber64_signed true _
      · rw [if_neg hreal]
        exact .inl ⟨-significand, rfl, by omega, by omega⟩

/-- A literal stands for a whole number that fits, or for a fraction. -/
theorem wholeValue_or_signed_of_literal {literal : Literal} {value : Json}
    (h : literal.value = .ok value) :
    (literal.isWhole = true ∧ (Literal.gather (Nat.pow 2 64) 0 literal.whole).2 = [] ∧
      value = Literal.wholeValue literal.negative
        (Literal.gather (Nat.pow 2 64) 0 literal.whole).1) ∨
      ∃ x, value = Literal.signed literal.negative x := by
  have hsigned : ∀ x, (.ok (Literal.signed literal.negative x) : Except Nat Json) = .ok value →
      ∃ x, value = Literal.signed literal.negative x :=
    fun x hx => ⟨x, (Except.ok.inj hx).symm⟩
  rw [Literal.value] at h
  split at h
  next hwhole => exact .inl ⟨hwhole.1, hwhole.2, (Except.ok.inj h).symm⟩
  next =>
      -- Everything else is a fraction or too large.
      right
      cases hexponent : literal.exponent with
      | none =>
          rw [hexponent] at h
          dsimp only at h
          split at h
          · exact hsigned _ h
          · cases h
      | some exponent =>
          obtain ⟨down, digits⟩ := exponent
          rw [hexponent] at h
          dsimp only at h
          cases hunread : (Literal.gather (Nat.pow 2 31) 0 digits).2 with
          | nil =>
              rw [hunread] at h
              dsimp only at h
              split at h
              · exact hsigned _ h
              · cases h
          | cons d unread =>
              rw [hunread] at h
              dsimp only at h
              split at h
              · cases h
              · exact hsigned _ h

/-- What a literal stands for. -/
theorem isNumber64_of_literal {literal : Literal} {value : Json}
    (h : literal.value = .ok value) : IsNumber64 value := by
  rcases wholeValue_or_signed_of_literal h with ⟨-, -, rfl⟩ | ⟨x, rfl⟩
  · exact isNumber64_wholeValue literal.negative (gather_lt literal.whole (Nat.two_pow_pos 64))
  · exact isNumber64_signed literal.negative x

theorem isNumber64_of_readLiteral {literal : Literal} {stop : Nat} {value : Json}
    (h : readLiteral literal stop = .ok value) : IsNumber64 value := by
  unfold readLiteral at h
  split at h
  next hvalue =>
      rw [← Except.ok.inj h]
      exact isNumber64_of_literal hvalue
  next => cases h

/-- A whole number that is read has 64 bits. -/
theorem lt_of_readNatural {room : Nat} {node : Node} {n : Nat}
    (h : readNatural room node = .ok n) : n < 2 ^ 64 := by
  unfold readNatural at h
  split at h
  next =>
      obtain ⟨value, hvalue, h⟩ := bind_eq_ok_iff.1 h
      rcases isNumber64_of_readLiteral hvalue with ⟨k, rfl, -, hk⟩ | ⟨x, rfl⟩
      · cases k with
        | ofNat k =>
            cases h
            simp only [Int.ofNat_eq_natCast] at hk
            omega
        | negSucc k => cases h
      · cases h
  next => exact absurd h not_refuse

theorem IsNumber64.isBounded {room : Nat} {value : Json} (h : IsNumber64 value) :
    IsBounded room value := by
  rcases h with ⟨n, rfl, hn⟩ | ⟨x, rfl⟩
  · constructor
    · intro k hk
      cases hk
      exact hn
    · exact Nat.zero_le room
  · constructor
    · intro k hk
      cases hk
    · exact Nat.zero_le room

mutual

/-- Any value that is read is bounded. -/
theorem isBounded_of_readAny {room : Nat} (node : Node) {value : Json}
    (h : readAny room node = .ok value) : IsBounded room value := by
  match node with
  | .null _ _ =>
      cases h
      exact isBounded_leaf nofun nofun nofun
  | .bool _ _ _ =>
      cases h
      exact isBounded_leaf nofun nofun nofun
  | .number _ _ _ => exact (isNumber64_of_readLiteral h).isBounded
  | .text _ =>
      obtain ⟨content, -, rfl⟩ := map_eq_ok_iff.1 h
      exact isBounded_leaf nofun nofun nofun
  | .array _ items =>
      cases room with
      | zero => cases h
      | succ room =>
          obtain ⟨values, hvalues, rfl⟩ := map_eq_ok_iff.1 h
          exact .array (isBounded_of_readAnyItems items hvalues)
  | .object _ entries =>
      cases room with
      | zero => cases h
      | succ room =>
          obtain ⟨members, hmembers, rfl⟩ := map_eq_ok_iff.1 h
          exact .object (isBounded_of_readAnyMembers entries hmembers)
  | .missing _ => cases h
  | .broken _ _ => cases h

theorem isBounded_of_readAnyItems {room : Nat} (items : Items) {values : List Json}
    (h : readAnyItems room items = .ok values) : ∀ v ∈ values, IsBounded room v := by
  match items with
  | .close _ =>
      cases h
      exact nofun
  | .broken _ => cases h
  | .item node _ more =>
      rw [readAnyItems] at h
      obtain ⟨first, hfirst, h⟩ := bind_eq_ok_iff.1 h
      obtain ⟨rest, hrest, h⟩ := bind_eq_ok_iff.1 h
      cases h
      intro v hv
      rcases List.mem_cons.1 hv with rfl | hmem
      · exact isBounded_of_readAny node hfirst
      · exact isBounded_of_readAnyItems more hrest v hmem

theorem isBounded_of_readAnyMembers {room : Nat} (entries : Entries)
    {members : List (String × Json)} (h : readAnyMembers room entries = .ok members) :
    ∀ e ∈ members, IsBounded room e.2 := by
  match entries with
  | .close _ =>
      cases h
      exact nofun
  | .broken _ => cases h
  | .keyless _ _ => cases h
  | .colonless _ _ _ =>
      rw [readAnyMembers] at h
      obtain ⟨-, -, h⟩ := bind_eq_ok_iff.1 h
      cases h
  | .entry _ _ node _ more =>
      rw [readAnyMembers] at h
      obtain ⟨name, -, h⟩ := bind_eq_ok_iff.1 h
      obtain ⟨first, hfirst, h⟩ := bind_eq_ok_iff.1 h
      obtain ⟨rest, hrest, h⟩ := bind_eq_ok_iff.1 h
      cases h
      intro e he
      rcases List.mem_cons.1 he with rfl | hmem
      · exact isBounded_of_readAny node hfirst
      · exact isBounded_of_readAnyMembers more hrest e hmem

end

end Bounds

/-- A text that is read has a tree that is read. -/
theorem exists_of_parse {α : Type} {read : Reader α} {text : String} {x : α}
    (h : parse read text = .ok x) : ∃ node, read maxDepth node = .ok x := by
  obtain ⟨value, hvalue, h⟩ := bind_eq_ok_iff.1 h
  split at h
  · cases h
    exact ⟨_, hvalue⟩
  · cases h

end CodeSmells.Json
