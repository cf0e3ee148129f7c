import CodeSmells.Proofs.Context.Dump
import CodeSmells.Proofs.Loading

/-!
# The round trip of a dump

Contexts without fractions in their payloads come back from their dump exactly
when they can be kept in one at all: their lines have 64 bits, and their payloads
are values other than `null`, with integers of 64 bits, that are nested no deeper
than readers go.  What is read from a text can always be kept.

**Results.**

* `dump_round_trip`: contexts come back from dumps, and texts become stable.
-/

namespace CodeSmells.Context

open Json

/-- There are no fractions inside the payloads. -/
def WithoutFractions (contexts : List Context) : Prop :=
  ∀ context ∈ contexts, ∀ assignment ∈ context.defaultAssignments,
    ∀ value ∈ assignment.value.value?, ∀ x, ¬ Inside (.real x) value

/--
Contexts without fractions come back from the text of their dump, and from a file
with this text, exactly when they can be kept.  The contexts of any text, if they
have no fractions, are dumped to a text that is dumped to itself again.
-/
theorem dump_round_trip :
    (∀ contexts : List Context, WithoutFractions contexts →
      (parseDump (dump contexts).compact = .ok contexts ↔
        ∀ context ∈ contexts, IsKept context)) ∧
    (∀ contexts : List Context, WithoutFractions contexts →
      (∀ context ∈ contexts, IsKept context) →
      ∀ (tree : FileTree) (path : Path) (location : Location),
        tree.resolve path = .ok (.file location (dump contexts).compact.toUTF8) →
          Context.load tree path = .ok contexts) ∧
    (∀ (text : String) (contexts : List Context), parseDump text = .ok contexts →
      WithoutFractions contexts →
      ∃ again, parseDump (dump contexts).compact = .ok again ∧
        (dump again).compact = (dump contexts).compact) := by
  refine ⟨?_, ?_, ?_⟩
  · intro contexts hreal
    constructor
    · exact isKept_of_parseDump
    · intro hkept
      exact parseDump_dump hkept hreal
  · intro contexts hreal hkept tree path location hfile
    exact load_of_resolve hfile (parseDump_dump hkept hreal)
  · intro text contexts hparse hreal
    exact ⟨contexts, parseDump_dump (isKept_of_parseDump hparse) hreal, rfl⟩

/-- A method on the last line there can be, with a list of numbers as a default. -/
theorem dump_round_trip_last_line :
    let method := (bare .method "Shape#scale" (2 ^ 64 - 1)).withDefault "factors"
      (.int (some (.array [.integer (-1), .integer 2])))
    parseDump (dump [method]).compact = .ok [method] ∧
      ∃ again, parseDump (dump [method]).compact = .ok again ∧
        (dump again).compact = (dump [method]).compact := by
  intro method
  have hitems : ∀ v ∈ [Json.integer (-1), .integer 2], ∃ n : Int,
      v = .integer n ∧ -2 ^ 63 ≤ n ∧ n < 2 ^ 64 := by
    simp
  have hpayload : IsPayload (maxDepth - 5) (.array [.integer (-1), .integer 2]) := by
    have hbounded : ∀ v ∈ [Json.integer (-1), .integer 2], IsBounded (maxDepth - 6) v :=
      fun v hv => IsNumber64.isBounded (.inl (hitems v hv))
    refine ⟨IsBounded.array hbounded, nofun, ?_⟩
    intro members hinside
    rcases inside_array_iff.1 hinside with hself | ⟨v, hv, hinside⟩
    · cases hself
    · obtain ⟨n, rfl, -⟩ := hitems v hv
      cases hinside
  have hvalue : ∀ context ∈ [method], ∀ assignment ∈ context.defaultAssignments,
      ∀ value ∈ assignment.value.value?, value = .array [.integer (-1), .integer 2] := by
    simp [method, withDefault, bare, Expression.value?]
  have hreal : WithoutFractions [method] := by
    intro context hcontext assignment hassignment value hmem x hinside
    rw [hvalue context hcontext assignment hassignment value hmem] at hinside
    rcases inside_array_iff.1 hinside with hself | ⟨v, hv, hinside⟩
    · cases hself
    · obtain ⟨n, rfl, -⟩ := hitems v hv
      cases hinside
  have hkept : ∀ context ∈ [method], IsKept context := by
    intro context hcontext
    constructor
    · rw [List.mem_singleton.1 hcontext]
      decide
    · intro assignment hassignment value hmem
      rw [hvalue context hcontext assignment hassignment value hmem]
      exact hpayload
  obtain ⟨hdump, -, hstable⟩ := dump_round_trip
  have hparse := (hdump [method] hreal).2 hkept
  exact ⟨hparse, hstable _ [method] hparse hreal⟩

end CodeSmells.Context
