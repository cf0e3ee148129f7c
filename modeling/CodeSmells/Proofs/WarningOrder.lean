import CodeSmells.Warning
import CodeSmells.Proofs.NameMap

/-!
# The order of warnings

`Warning.order` compares the *keys* of warnings: source parts, first line, smell
type, context, message, lines and parameters.  The key forgets the spelling of
the source and nothing else, so warnings that are neither before nor after each
other are `same`.

**Results.**

* `order_eq_keyOrder`: the order looks at nothing but the keys.
* `order_eq_eq_iff`, `same_iff`: equality in the order is `same`.
* `keyOrder_antisymm`: keys that are below each other are equal.
* `eq_of_same`: warnings that are `same` and spell their source alike are equal.
-/

namespace CodeSmells

open Std

/-- Values are compared lawfully by what a function shows of them. -/
theorem transCmp_on {α β : Type} (compare : β → β → Ordering) [TransCmp compare] (f : α → β) :
    TransCmp fun a b => compare (f a) (f b) where
  eq_swap := OrientedCmp.eq_swap
  isLE_trans := TransCmp.isLE_trans

theorem isLE_or_isLE {α : Type} (compare : α → α → Ordering) [TransCmp compare] (a b : α) :
    ((compare a b).isLE || (compare b a).isLE) = true := by
  have hswap : compare a b = (compare b a).swap := OrientedCmp.eq_swap
  rw [hswap]
  cases compare b a <;> rfl

/-- Sorting by a lawful comparison sorts. -/
theorem pairwise_mergeSort_isLE {α : Type} (compare : α → α → Ordering) [TransCmp compare]
    (xs : List α) :
    (xs.mergeSort fun a b => (compare a b).isLE).Pairwise
      fun a b => (compare a b).isLE = true := by
  apply List.pairwise_mergeSort
  · intro a b c hab hbc
    exact TransCmp.isLE_trans hab hbc
  · exact isLE_or_isLE compare

section Paths

namespace Path

theorem Part.compare_eq (a b : Part) :
    compare a b = compareLex (compareOn (·.key.1)) (compareOn (·.key.2)) a b := rfl

instance : TransOrd Part :=
  inferInstanceAs (TransCmp (compareLex (compareOn fun part : Part => part.key.1)
    (compareOn fun part : Part => part.key.2)))

instance : LawfulEqOrd Part where
  eq_of_compare {a b} h := by
    rw [Part.compare_eq, compareLex_eq_eq] at h
    have hrank : a.key.1 = b.key.1 := LawfulEqOrd.eq_of_compare h.1
    have hname : a.key.2 = b.key.2 := LawfulEqOrd.eq_of_compare h.2
    exact Part.key_injective (Prod.ext hrank hname)

instance : TransCmp order :=
  inferInstanceAs (TransCmp (compareOn parts))

theorem same_iff {a b : Path} : a.same b = true ↔ a.parts = b.parts := by
  rw [same, beq_iff_eq]

end Path

end Paths

namespace Warning

section Details

instance : TransCmp detailOrder :=
  inferInstanceAs (TransCmp (List.compareLex (compareLex (compareOn Prod.fst)
    (compareOn Prod.snd))))

/-- Pairs are compared by both components. -/
theorem eq_of_detail_eq {a b : String × String}
    (h : compareLex (compareOn Prod.fst) (compareOn Prod.snd) a b = .eq) : a = b := by
  rw [compareLex_eq_eq] at h
  have hfst : a.1 = b.1 := LawfulEqOrd.eq_of_compare h.1
  have hsnd : a.2 = b.2 := LawfulEqOrd.eq_of_compare h.2
  exact Prod.ext hfst hsnd

instance : LawfulEqCmp
    (compareLex (compareOn (Prod.fst (α := String) (β := String))) (compareOn Prod.snd)) where
  eq_of_compare := eq_of_detail_eq

instance : LawfulEqCmp detailOrder :=
  inferInstanceAs (LawfulEqCmp (List.compareLex (compareLex
    (compareOn (Prod.fst (α := String) (β := String))) (compareOn Prod.snd))))

end Details

section Keys

/-- What the order of warnings looks at. -/
structure Key where
  source : List Path.Part
  firstLine : Option Nat
  smellType : String
  context : String
  message : String
  lines : List Nat
  parameters : List (String × String)

def key (warning : Warning) : Key :=
  { source := warning.source.parts
    firstLine := warning.firstLine?
    smellType := warning.smellType
    context := warning.context
    message := warning.message
    lines := warning.lines
    parameters := warning.parameters.entries }

def keyOrder : Key → Key → Ordering :=
  compareLex (compareOn Key.source) <|
  compareLex (compareOn Key.firstLine) <|
  compareLex (compareOn Key.smellType) <|
  compareLex (compareOn Key.context) <|
  compareLex (compareOn Key.message) <|
  compareLex (compareOn Key.lines) <|
  fun a b => detailOrder a.parameters b.parameters

/-- The order of warnings looks at nothing but the keys. -/
theorem order_eq_keyOrder (a b : Warning) : order a b = keyOrder a.key b.key := rfl

instance : TransCmp fun a b : Key => detailOrder a.parameters b.parameters :=
  transCmp_on detailOrder Key.parameters

instance : TransCmp keyOrder := by
  unfold keyOrder
  infer_instance

/-- The comparisons of the seven components leave nothing of a key out. -/
theorem eq_of_keyOrder_eq {a b : Key} (h : keyOrder a b = .eq) : a = b := by
  simp only [keyOrder, compareLex_eq_eq] at h
  obtain ⟨hsource, hfirst, hsmell, hcontext, hmessage, hlines, hparameters⟩ := h
  have hsource : a.source = b.source := LawfulEqOrd.eq_of_compare hsource
  have hfirst : a.firstLine = b.firstLine := LawfulEqOrd.eq_of_compare hfirst
  have hsmell : a.smellType = b.smellType := LawfulEqOrd.eq_of_compare hsmell
  have hcontext : a.context = b.context := LawfulEqOrd.eq_of_compare hcontext
  have hmessage : a.message = b.message := LawfulEqOrd.eq_of_compare hmessage
  have hlines : a.lines = b.lines := LawfulEqOrd.eq_of_compare hlines
  have hparameters : a.parameters = b.parameters := LawfulEqCmp.eq_of_compare hparameters
  cases a
  cases b
  simp_all only

instance : LawfulEqCmp keyOrder where
  eq_of_compare := eq_of_keyOrder_eq

/-- Keys that are below each other are equal. -/
theorem keyOrder_antisymm {a b : Key} (hab : (keyOrder a b).isLE = true)
    (hba : (keyOrder b a).isLE = true) : a = b :=
  LawfulEqCmp.eq_of_compare (OrientedCmp.isLE_antisymm hab hba)

instance : TransCmp order :=
  transCmp_on keyOrder key

end Keys

section Equality

variable {a b : Warning}

/-- Warnings are `same` exactly when their keys are equal. -/
theorem same_iff : a.same b = true ↔ a.key = b.key := by
  have hparameters : a.parameters = b.parameters ↔
      a.parameters.entries = b.parameters.entries := by
    constructor
    · exact congrArg NameMap.entries
    · exact NameMap.ext_entries
  simp only [same, Bool.and_eq_true, beq_iff_eq, Path.same_iff, hparameters, key,
    Key.mk.injEq, firstLine?]
  constructor
  · rintro ⟨⟨⟨⟨⟨hsmell, hcontext⟩, hsource⟩, hlines⟩, hmessage⟩, hentries⟩
    exact ⟨hsource, congrArg _ hlines, hsmell, hcontext, hmessage, hlines, hentries⟩
  · rintro ⟨hsource, -, hsmell, hcontext, hmessage, hlines, hentries⟩
    exact ⟨⟨⟨⟨⟨hsmell, hcontext⟩, hsource⟩, hlines⟩, hmessage⟩, hentries⟩

/-- Warnings that are neither before nor after each other are `same`. -/
theorem order_eq_eq_iff : order a b = .eq ↔ a.same b = true := by
  rw [same_iff, order_eq_keyOrder]
  constructor
  · exact eq_of_keyOrder_eq
  · intro h
    rw [h]
    exact ReflCmp.compare_self

/-- Warnings that are `same` and spell their source alike are equal. -/
theorem eq_of_same (h : a.same b = true) (htext : a.source.text = b.source.text) : a = b := by
  simp only [same, Bool.and_eq_true, beq_iff_eq] at h
  obtain ⟨⟨⟨⟨⟨hsmell, hcontext⟩, -⟩, hlines⟩, hmessage⟩, hparameters⟩ := h
  have hsource : a.source = b.source := by
    cases ha : a.source
    cases hb : b.source
    simp_all only
  cases a
  cases b
  simp_all only

end Equality

end Warning

end CodeSmells
