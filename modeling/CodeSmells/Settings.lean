import CodeSmells.NamePattern
import CodeSmells.Json.Read

/-!
# Detector settings

A `DetectorEntry` is what a configuration or a context says on one detector.
`DetectorSettings` are an entry with the defaults applied: a detector is
enabled and excludes nothing unless an entry says otherwise.
-/

namespace CodeSmells

/-- What is said on one detector. -/
structure DetectorEntry where
  enabled : Option Bool
  exclude : List String
deriving DecidableEq, Repr, Inhabited

/-- The settings that a detector works with. -/
structure DetectorSettings where
  enabled : Bool
  /-- Patterns for the names of contexts that the detector leaves out. -/
  exclude : List String
deriving DecidableEq, Repr

/-- Enabled, with nothing excluded. -/
def DetectorSettings.default : DetectorSettings :=
  ⟨true, []⟩

def DetectorSettings.ofEntry (entry : DetectorEntry) : DetectorSettings :=
  ⟨entry.enabled.getD true, entry.exclude⟩

namespace DetectorEntry

/-- The entry that says nothing. -/
def blank : DetectorEntry :=
  ⟨none, []⟩

/-- An entry as a JSON object without what is not said. -/
def toJson (entry : DetectorEntry) : Json :=
  .object <|
    (match entry.enabled with
      | none => []
      | some value => [("enabled", .bool value)]) ++
    (if entry.exclude.isEmpty then [] else [("exclude", .array (entry.exclude.map Json.text))])

/-- An entry that is being read. -/
structure Draft where
  enabled : Option (Option Bool)
  exclude : Option (List String)

open Json in
/-- The fields of an entry. -/
def field (room : Nat) (draft : Draft) (name : String) : FieldRule Draft :=
  if name = "enabled" then
    if draft.enabled.isSome then .repeated name
    else .known fun node => (readOptional readBool room node).map fun value =>
      { draft with enabled := some value }
  else if name = "exclude" then
    if draft.exclude.isSome then .repeated name
    else .known fun node => (readList (readText .string) room node).map fun value =>
      { draft with exclude := some value }
  else .unknown

open Json in
/-- An entry as an object or as an array of its fields; each field may be left out. -/
def read : Reader DetectorEntry
  | room, .object start entries => enter room start fun room => do
      let (draft, _) ← entries.fold (field room) ⟨none, none⟩
      .ok ⟨draft.enabled.getD none, draft.exclude.getD []⟩
  | room, .array start items => enter room start fun room => do
      let (enabled, items) ← items.next (readOptional readBool room)
      let (exclude, items) ← items.next (readList (readText .string) room)
      items.finish
      .ok ⟨enabled.getD none, exclude.getD []⟩
  | _, node => refuse (.record "DetectorConfig") node

end DetectorEntry

end CodeSmells
