import CodeSmells.Proofs.Toml.Tables
import CodeSmells.Toml.Scan

/-!
# What is scanned from the text of a document

The values of a text are no tables of headers, and at every depth their tables have
each name once.  Hence so have the tables of a document.

**Results.**

* `gives_bind`, `gives_bind_of`: what scanners in a row give.
* `isValue_value`, `proper_scanned`: the values of a text.
* `written_statements?`: the statements of a text write such values.
* `proper_entries?`: the tables of a document have each name once.
-/

namespace CodeSmells
namespace Toml

namespace Scanner

variable {α β : Type}

/-- Whatever a scanner gives satisfies `p`. -/
def Gives (p : α → Prop) (scanner : Scanner α) : Prop :=
  ∀ cursor a next, scanner cursor = some (a, next) → p a

variable {p : α → Prop} {q : β → Prop} {scanner : Scanner α} {f : α → Scanner β}

theorem gives_pure {a : α} (h : p a) : Gives p (pure a) := by
  intro cursor b next hb
  cases hb
  exact h

theorem gives_fail : Gives p fail :=
  nofun

/-- What comes first does not matter if all that can come after it gives `q`. -/
theorem gives_bind (h : ∀ a, Gives q (f a)) : Gives q (scanner >>= f) := by
  intro cursor b next hb
  obtain ⟨⟨a, middle⟩, -, hf⟩ := Option.bind_eq_some_iff.1 hb
  exact h a middle b next hf

/-- What comes after a scanner may use what this one gives. -/
theorem gives_bind_of (hscanner : Gives p scanner) (h : ∀ a, p a → Gives q (f a)) :
    Gives q (scanner >>= f) := by
  intro cursor b next hb
  obtain ⟨⟨a, middle⟩, ha, hf⟩ := Option.bind_eq_some_iff.1 hb
  exact h a (hscanner cursor a middle ha) middle b next hf

end Scanner

open Scanner

section Values

/-- An item that is written after a key: no table of headers. -/
def Item.IsValue : Item → Prop
  | .table _ _ => False
  | .tables _ => False
  | _ => True

/-- A scanned value is no table of headers. -/
theorem isValue_value (fuel room : Nat) : Gives Item.IsValue (value fuel room) := by
  cases fuel with
  | zero => exact gives_fail
  | succ fuel =>
      rw [value]
      refine gives_bind fun start => gives_bind fun chars => ?_
      split
      next =>
        split
        · exact gives_fail
        · exact gives_bind fun _ => gives_bind fun _ => gives_bind fun _ => gives_bind fun _ =>
            gives_pure trivial
      next =>
        split
        · exact gives_fail
        · refine gives_bind fun _ => gives_bind fun _ => gives_bind fun inner => ?_
          split
          · exact gives_bind fun _ => gives_bind fun _ => gives_pure trivial
          · refine gives_bind fun found => ?_
            split
            · exact gives_bind fun _ => gives_pure trivial
            · exact gives_fail
      next => exact gives_bind fun _ => gives_bind fun _ => gives_pure trivial

/-- Scanned values, items of arrays and assignments in braces are proper. -/
theorem proper_scanned (fuel : Nat) :
    (∀ room, Gives Item.Proper (value fuel room)) ∧
    (∀ room, Gives (fun items => ∀ item ∈ items, Item.Proper item) (arrayItems fuel room)) ∧
    ∀ room, Gives (fun found => ∀ assignment ∈ found, Item.Proper assignment.2)
      (assignments fuel room) := by
  induction fuel with
  | zero => exact ⟨fun _ => gives_fail, fun _ => gives_fail, fun _ => gives_fail⟩
  | succ fuel ih =>
      obtain ⟨hvalue, hitems, hassignments⟩ := ih
      refine ⟨fun room => ?_, fun room => ?_, fun room => ?_⟩
      · rw [value]
        refine gives_bind fun start => gives_bind fun chars => ?_
        split
        next =>
          split
          next => exact gives_fail
          next room =>
            refine gives_bind fun _ => gives_bind fun _ => ?_
            exact gives_bind_of (hitems room) fun items hproper => gives_bind fun _ =>
              gives_pure (.array hproper)
        next =>
          split
          next => exact gives_fail
          next room =>
            refine gives_bind fun _ => gives_bind fun _ => gives_bind fun inner => ?_
            split
            next =>
              exact gives_bind fun _ => gives_bind fun _ =>
                gives_pure (.braces List.nodup_nil nofun)
            next =>
              refine gives_bind_of (hassignments room) fun found hproper => ?_
              split
              next entries hentries =>
                have hbraces := proper_assembleBraces hproper hentries
                exact gives_bind fun _ => gives_pure (.braces hbraces.distinct hbraces.items)
              next => exact gives_fail
        next => exact gives_bind fun _ => gives_bind fun _ => gives_pure .scalar
      · rw [arrayItems]
        refine gives_bind fun chars => ?_
        split
        next => exact gives_bind fun _ => gives_pure nofun
        next =>
          refine gives_bind_of (hvalue room) fun first hfirst => gives_bind fun _ =>
            gives_bind fun inner => ?_
          split
          next =>
            refine gives_bind fun _ => gives_bind fun _ => ?_
            exact gives_bind_of (hitems room) fun others hothers =>
              gives_pure (List.forall_mem_cons.2 ⟨hfirst, hothers⟩)
          next => exact gives_bind fun _ => gives_pure (List.forall_mem_singleton.2 hfirst)
          next => exact gives_fail
      · rw [assignments]
        refine gives_bind fun path => gives_bind fun _ => gives_bind fun _ => ?_
        refine gives_bind_of (hvalue room) fun item hitem => gives_bind fun _ =>
          gives_bind fun inner => ?_
        split
        next =>
          refine gives_bind fun _ => ?_
          exact gives_bind_of (hassignments room) fun others hothers =>
            gives_pure (List.forall_mem_cons.2 ⟨hitem, hothers⟩)
        next => exact gives_bind fun _ => gives_pure (List.forall_mem_singleton.2 hitem)
        next => exact gives_fail

theorem written_value (fuel room : Nat) :
    Gives (fun item : Item => item.Proper ∧ item.IsValue) (value fuel room) :=
  fun cursor item next h =>
    ⟨(proper_scanned fuel).1 room cursor item next h, isValue_value fuel room cursor item next h⟩

end Values

section Statements

/-- What a statement writes is a value with distinct names in its tables. -/
def Statement.Written : Statement → Prop
  | .assign _ item => item.Proper ∧ item.IsValue
  | .header _ _ => True
  | .arrayHeader _ _ => True

theorem Statement.Written.proper {statement : Statement} (h : statement.Written) :
    statement.Proper := by
  cases statement with
  | assign path item => exact h.1
  | header | arrayHeader => trivial

theorem written_statement : Gives Statement.Written statement := by
  have hlast : ∀ found : Statement, found.Written →
      Gives Statement.Written (do restOfLine; return found) :=
    fun found hfound => gives_bind fun _ => gives_pure hfound
  rw [statement]
  refine gives_bind fun chars => ?_
  dsimp only
  split
  next => exact gives_bind fun header => hlast (.arrayHeader _ _) trivial
  next => exact gives_bind fun header => hlast (.header _ _) trivial
  next =>
    refine gives_bind fun path => gives_bind fun _ => gives_bind fun _ => gives_bind fun rest => ?_
    exact gives_bind_of (written_value _ _) fun item hitem => hlast (.assign path item) hitem

theorem written_statements (fuel : Nat) :
    Gives (fun found => ∀ statement ∈ found, Statement.Written statement) (statements fuel) := by
  induction fuel with
  | zero => exact gives_fail
  | succ fuel ih =>
      rw [statements]
      refine gives_bind fun _ => gives_bind fun chars => ?_
      split
      next => exact gives_pure nofun
      next =>
        refine gives_bind_of written_statement fun first hfirst => ?_
        exact gives_bind_of ih fun others hothers =>
          gives_pure (List.forall_mem_cons.2 ⟨hfirst, hothers⟩)

/-- The statements of a text write proper values. -/
theorem written_statements? {text : String} {found : List Statement}
    (h : statements? text = some found) : ∀ statement ∈ found, statement.Written := by
  obtain ⟨⟨_, next⟩, hscan, rfl⟩ := Option.map_eq_some_iff.1 h
  exact written_statements _ _ _ next hscan

/-- The tables of a document have each name once. -/
theorem proper_entries? {text : String} {entries : Entries} (h : entries? text = some entries) :
    entries.Proper := by
  obtain ⟨found, hfound, hassemble⟩ := Option.bind_eq_some_iff.1 h
  exact proper_assemble (fun statement hmem => (written_statements? hfound statement hmem).proper)
    hassemble

end Statements

end Toml
end CodeSmells
