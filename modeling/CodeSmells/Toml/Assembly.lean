import CodeSmells.Toml.Basic

/-!
# Assembling a document

The statements of a document are carried out in order on its table.  A
statement that would change what is complete has no result: no key is assigned
twice, no table is opened by two headers, and neither a dotted key nor a header
reaches into a table of the other kind.
-/

namespace CodeSmells
namespace Toml

/-- A table that can grow. -/
structure Body where
  traits : Traits
  entries : Entries

/--
Change the table at the end of a path.  Missing tables on the way are made.  A
dotted key passes only through tables that no header opened.
-/
def Body.at (dotted : Bool) (change : Body → Option Body) : List Key → Body → Option Body
  | [], body => change body
  | key :: path, body =>
      match body.entries.find? key.name with
      | none => do
          let inner ← Body.at dotted change path ⟨⟨true, dotted, none⟩, []⟩
          some { body with entries := body.entries ++ [(key, .table inner.traits inner.entries)] }
      | some (.table traits entries) =>
          if dotted && !traits.implicit then none
          else do
            let inner ← Body.at dotted change path ⟨traits, entries⟩
            some { body with
              entries := body.entries.replace key.name (.table inner.traits inner.entries) }
      | some (.tables elements) => do
          let last ← elements.getLast?
          let inner ← Body.at dotted change path ⟨last.1, last.2⟩
          some { body with
            entries := body.entries.replace key.name
              (.tables (elements.dropLast ++ [(inner.traits, inner.entries)])) }
      | some _ => none

/-- Split a path into the way to a table and the key in it. -/
def splitPath (path : List Key) : Option (List Key × Key) :=
  path.getLast?.map fun key => (path.dropLast, key)

/-- Open a table; one that was only implicit moves to the end. -/
def openTable (key : Key) (span : Span) (parent : Body) : Option Body :=
  let traits : Traits := ⟨false, false, some span⟩
  match parent.entries.find? key.name with
  | none => some { parent with entries := parent.entries ++ [(key, .table traits [])] }
  | some (.table old entries) =>
      if old.implicit && !old.dotted then
        some { parent with
          entries := parent.entries.remove key.name ++ [(key, .table traits entries)] }
      else none
  | some _ => none

/-- Open one more table of an array of tables. -/
def openElement (key : Key) (span : Span) (parent : Body) : Option Body :=
  let element : Traits × Entries := (⟨false, false, some span⟩, [])
  match parent.entries.find? key.name with
  | none => some { parent with entries := parent.entries ++ [(key, .tables [element])] }
  | some (.tables elements) =>
      some { parent with
        entries := parent.entries.replace key.name (.tables (elements ++ [element])) }
  | some _ => none

/-- Assign a new key; a dotted key ends in a table of dotted keys, and only such a key does. -/
def assignKey (underDots : Bool) (key : Key) (item : Item) (body : Body) : Option Body :=
  if body.traits.dotted ≠ underDots then none
  else if (body.entries.find? key.name).isSome then none
  else some { body with entries := body.entries ++ [(key, item)] }

/-- The span of a table reaches to the end of the last value in it. -/
def Body.extend (body : Body) (item : Item) : Body :=
  match body.traits.span, item.span? with
  | some old, some new =>
      { body with traits := { body.traits with span := some ⟨old.start, new.stop⟩ } }
  | _, _ => body

/-- Assign an item under a dotted path. -/
def assignPath (path : List Key) (item : Item) (body : Body) : Option Body := do
  let (way, key) ← splitPath path
  Body.at true (assignKey (!way.isEmpty) key item) way body

/-- A document under assembly: its table, and the path of the table that is open. -/
structure Assembly where
  root : Body
  current : List Key

namespace Assembly

def empty : Assembly :=
  ⟨⟨⟨false, false, some ⟨0, 0⟩⟩, []⟩, []⟩

/-- Carry out a statement. -/
def step (assembly : Assembly) : Statement → Option Assembly
  | .header path span => do
      let (way, key) ← splitPath path
      let root ← Body.at false (openTable key span) way assembly.root
      some ⟨root, path⟩
  | .arrayHeader path span => do
      let (way, key) ← splitPath path
      let root ← Body.at false (openElement key span) way assembly.root
      some ⟨root, path⟩
  | .assign path item => do
      let root ← Body.at false (fun body => assignPath path item (body.extend item))
        assembly.current assembly.root
      some { assembly with root }

end Assembly

/-- The table that statements describe. -/
def assemble (statements : List Statement) : Option Entries :=
  (statements.foldlM Assembly.step Assembly.empty).map fun assembly => assembly.root.entries

/-- The entries that the assignments in braces describe. -/
def assembleBraces (assignments : List (List Key × Item)) : Option Entries :=
  (assignments.foldlM (fun body assignment => assignPath assignment.1 assignment.2 body)
    (⟨⟨false, false, none⟩, []⟩ : Body)).map Body.entries

end Toml
end CodeSmells
