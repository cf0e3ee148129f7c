import CodeSmells.Context.Basic

/-!
# Dumps of contexts

A dump is a JSON array of contexts.  Each context, and each default in it, is
an object with named fields or an array of its fields in order.  Fields without
a name of their own are ignored.
-/

namespace CodeSmells

open Json

namespace DefaultAssignment

def toJson (assignment : DefaultAssignment) : Json :=
  .object [("parameter", .text assignment.parameter), ("value", assignment.value.toJson)]

/-- A default that is being read. -/
structure Draft where
  parameter : Option String
  value : Option Expression

def field (room : Nat) (draft : Draft) (name : String) : FieldRule Draft :=
  if name = "parameter" then
    if draft.parameter.isSome then .repeated name
    else .known fun node => (readText .string room node).map fun value =>
      { draft with parameter := some value }
  else if name = "value" then
    if draft.value.isSome then .repeated name
    else .known fun node => (Expression.read room node).map fun value =>
      { draft with value := some value }
  else .unknown

/-- A default as an object or as an array of its two fields. -/
def read : Reader DefaultAssignment
  | room, .object start entries => enter room start fun room => do
      let (draft, stop) ← entries.fold (field room) ⟨none, none⟩
      let parameter ← requireField "parameter" stop draft.parameter
      let value ← requireField "value" stop draft.value
      .ok ⟨parameter, value⟩
  | room, .array start items => enter room start fun room => do
      let expected := Expected.recordItems "DefaultAssignment" 2
      let (parameter, items) ← items.required expected 0 (readText .string room)
      let (value, items) ← items.required expected 1 (Expression.read room)
      items.finish
      .ok ⟨parameter, value⟩
  | _, node => refuse (.record "DefaultAssignment") node

end DefaultAssignment

namespace Context

/-- A context as a JSON object; overrides are left out when there are none. -/
def toJson (context : Context) : Json :=
  .object <|
    [("type", .text context.kind.name),
     ("full_name", .text context.fullName),
     ("source", .text context.source.text),
     ("line", .natural context.line),
     ("default_assignments",
       .array (context.defaultAssignments.map DefaultAssignment.toJson))] ++
    (if context.overrides.isEmpty then []
     else [("config_overrides", Json.ofMap DetectorEntry.toJson context.overrides.entries)])

/-- A context that is being read. -/
structure Draft where
  kind : Option Kind
  fullName : Option String
  source : Option String
  line : Option Nat
  defaultAssignments : Option (List DefaultAssignment)
  overrides : Option (NameMap DetectorEntry)

/-- The fields of a context; the line has two names. -/
def field (room : Nat) (draft : Draft) (name : String) : FieldRule Draft :=
  if name = "type" then
    if draft.kind.isSome then .repeated name
    else .known fun node => (Kind.read room node).map fun value =>
      { draft with kind := some value }
  else if name = "full_name" then
    if draft.fullName.isSome then .repeated name
    else .known fun node => (readText .string room node).map fun value =>
      { draft with fullName := some value }
  else if name = "source" then
    if draft.source.isSome then .repeated name
    else .known fun node => (readText .path room node).map fun value =>
      { draft with source := some value }
  else if name = "line" ∨ name = "declaration_line" then
    if draft.line.isSome then .repeated "line"
    else .known fun node => (readNatural room node).map fun value =>
      { draft with line := some value }
  else if name = "default_assignments" then
    if draft.defaultAssignments.isSome then .repeated name
    else .known fun node => (readList DefaultAssignment.read room node).map fun value =>
      { draft with defaultAssignments := some value }
  else if name = "config_overrides" then
    if draft.overrides.isSome then .repeated name
    else .known fun node => (readMap DetectorEntry.read room node).map fun value =>
      { draft with overrides := some value }
  else .unknown

/-- A context as an object or as an array of its fields. -/
def read : Reader Context
  | room, .object start entries => enter room start fun room => do
      let (draft, stop) ← entries.fold (field room) ⟨none, none, none, none, none, none⟩
      let kind ← requireField "type" stop draft.kind
      let line ← requireField "line" stop draft.line
      .ok ⟨kind, draft.fullName.getD "", ⟨draft.source.getD ""⟩, line,
        draft.defaultAssignments.getD [], draft.overrides.getD NameMap.empty⟩
  | room, .array start items => enter room start fun room => do
      let expected := Expected.recordItems "Context" 6
      let (kind, items) ← items.required expected 0 (Kind.read room)
      let (fullName, items) ← items.next (readText .string room)
      let (source, items) ← items.next (readText .path room)
      let (line, items) ← items.required expected 3 (readNatural room)
      let (defaults, items) ← items.next (readList DefaultAssignment.read room)
      let (overrides, items) ← items.next (readMap DetectorEntry.read room)
      items.finish
      .ok ⟨kind, fullName.getD "", ⟨source.getD ""⟩, line, defaults.getD [],
        overrides.getD NameMap.empty⟩
  | _, node => refuse (.record "Context") node

/-- The contexts that a text holds. -/
def parseDump : String → Reading (List Context) :=
  parse (readList read)

/-- Contexts as a JSON array. -/
def dump (contexts : List Context) : Json :=
  .array (contexts.map toJson)

end Context

end CodeSmells
