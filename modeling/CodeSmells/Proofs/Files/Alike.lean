import CodeSmells.Proofs.Files.Listing
import Mathlib.Data.Option.Defs

/-!
# File trees that are alike

Two trees are alike up to one location if the one has what the other has everywhere
else, with bytes that are related.  A way that does not come to the location leads to
the same place in both trees, and a way that ends there in the one ends there in the
other.

**Results.**

* `follow_alike`, `walk_alike`, `resolve_alike`: ways that stay clear of the location.
* `Leads.to_location`, `locate_to_location`: ways that end there.
-/

namespace CodeSmells
namespace FileTree

/-- What stands in the same place of two trees: files have related bytes. -/
inductive Entry.Alike (R : ByteArray → ByteArray → Prop) : Entry → Entry → Prop
  | file {location : Location} {bytes bytes' : ByteArray} :
      R bytes bytes' → Alike R (.file location bytes) (.file location bytes')
  | sealed {location : Location} : Alike R (.sealed location) (.sealed location)
  | directory {location : Location} : Alike R (.directory location) (.directory location)

/-- Where a step leads in two trees. -/
inductive Step.Alike (R : ByteArray → ByteArray → Prop) : Step → Step → Prop
  | reached {entry entry' : Entry} :
      entry.Alike R entry' → Alike R (.reached entry) (.reached entry')
  | link {directory : Location} {target : Path} :
      Alike R (.link directory target) (.link directory target)
  | free {directory : Location} {name : FileName} :
      Alike R (.free directory name) (.free directory name)

/-- Where a way leads in two trees. -/
inductive Place.Alike (R : ByteArray → ByteArray → Prop) : Place → Place → Prop
  | taken {entry entry' : Entry} :
      entry.Alike R entry' → Alike R (.taken entry) (.taken entry')
  | free {directory : Location} {name : FileName} :
      Alike R (.free directory name) (.free directory name)

/-- Two computations fail in the same way, or have related results. -/
inductive Agree {α : Type} (S : α → α → Prop) : Except FileError α → Except FileError α → Prop
  | error {error : FileError} : Agree S (.error error) (.error error)
  | ok {a b : α} : S a b → Agree S (.ok a) (.ok b)

/-- A location where neither a directory nor a link stands. -/
structure IsPlain (tree : FileTree) (location : Location) : Prop where
  isDirectory : tree.isDirectory location = false
  link : tree.link? location = none

/-- Two trees differ at one location only, apart from the bytes of files. -/
structure AlikeBut (R : ByteArray → ByteArray → Prop) (location : Location)
    (tree other : FileTree) : Prop where
  plain : tree.IsPlain location
  plain' : other.IsPlain location
  standing : ∀ elsewhere, elsewhere ≠ location →
    Option.Rel (Entry.Alike R) (tree.standing? elsewhere) (other.standing? elsewhere)
  link : ∀ elsewhere, elsewhere ≠ location → tree.link? elsewhere = other.link? elsewhere
  allows : ∀ access elsewhere, tree.allows access elsewhere = other.allows access elsewhere
  workingDirectory : tree.workingDirectory = other.workingDirectory

/-- The way from an entry comes to a file at a location. -/
inductive Meets (tree : FileTree) (location : Location) : Nat → Entry → List String → Prop
  | here {links : Nat} {here next : Entry} {segment : String} {rest : List String} :
      tree.follow here segment = .ok (.reached next) → next.location = location →
      Meets tree location links here (segment :: rest)
  | further {links : Nat} {here next : Entry} {segment : String} {rest : List String} :
      tree.follow here segment = .ok (.reached next) → Meets tree location links next rest →
      Meets tree location links here (segment :: rest)
  | linked {links : Nat} {here : Entry} {segment : String} {rest : List String}
      {directory : Location} {target : Path} :
      tree.follow here segment = .ok (.link directory target) →
      Meets tree location links (.directory (start target directory)) (segments target ++ rest) →
      Meets tree location (links + 1) here (segment :: rest)

/-- A path that does not come to a file, neither in the end nor on its way. -/
def IsClearOf (tree : FileTree) (path : Path) (location : Location) : Prop :=
  ¬ tree.Meets location maxLinks (.directory (start path tree.workingDirectory)) (segments path)

variable {R : ByteArray → ByteArray → Prop} {location directory : Location}
  {tree other : FileTree} {path : Path} {name : FileName} {links : Nat} {here here' : Entry}
  {segment : String} {way : List String}

section Steps

/-- A name leads alike unless it is that of the location. -/
theorem lookup_alike (h : AlikeBut R location tree other) {start : Location}
    (hne : start ++ [name] ≠ location) :
    Step.Alike R (tree.lookup start name) (other.lookup start name) := by
  have hstanding := h.standing _ hne
  have hlink := h.link _ hne
  rcases lookup_cases tree start name with ⟨entry, hentry, hlookup⟩ |
    ⟨target, htarget, hlookup⟩ | ⟨hnone, hnolink, hlookup⟩
  · rw [hentry] at hstanding
    generalize hother : other.standing? (start ++ [name]) = found at hstanding
    cases hstanding with
    | some halike =>
        rw [hlookup, lookup_of_standing? hother]
        exact .reached halike
  · rw [hlookup, lookup_of_link? (hlink.symm.trans htarget)]
    exact .link
  · rw [hnone] at hstanding
    generalize hother : other.standing? (start ++ [name]) = found at hstanding
    cases hstanding with
    | none =>
        rw [hlookup, lookup_of_none hother (hlink.symm.trans hnolink)]
        exact .free

theorem lets_alike (h : AlikeBut R location tree other) {start : Location} :
    tree.lets start segment ↔ other.lets start segment := by
  rw [lets, lets, h.allows]

/-- A segment leads alike from directories unless it names the location. -/
theorem follow_alike (h : AlikeBut R location tree other) {start : Location}
    (hne : ∀ name : FileName, name.text = segment → tree.lets start segment →
      start ++ [name] ≠ location) :
    Agree (Step.Alike R) (tree.follow (.directory start) segment)
      (other.follow (.directory start) segment) := by
  by_cases hlets : tree.lets start segment
  · have hlets' := (lets_alike h).1 hlets
    rcases follow_cases start segment with ⟨above, -, hfollow⟩ | ⟨error, hfollow⟩ |
      ⟨name, hname, hfollow⟩
    · rw [hfollow tree hlets, hfollow other hlets']
      exact .ok (.reached .directory)
    · rw [hfollow tree hlets, hfollow other hlets']
      exact .error
    · rw [hfollow tree hlets, hfollow other hlets']
      exact .ok (lookup_alike h (hne name hname hlets))
  · rw [follow_of_not_lets hlets, follow_of_not_lets fun hother => hlets ((lets_alike h).2 hother)]
    exact .error

end Steps

section ClearWays

/-- A way leads alike from places that are alike if it does not come to the location. -/
theorem walk_alike (h : AlikeBut R location tree other) (hfile : tree.HasFile location)
    (hhere : here.Alike R here') (hclear : ¬ tree.Meets location links here way) :
    Agree (Place.Alike R) (tree.walk links here way) (other.walk links here' way) := by
  induction links using Nat.strongRecOn generalizing here here' way with
  | ind links ihlinks =>
    induction way generalizing here here' with
    | nil => exact .ok (.taken hhere)
    | cons segment rest ih =>
        have hfollow : Agree (Step.Alike R) (tree.follow here segment)
            (other.follow here' segment) := by
          cases hhere with
          | file _ | sealed => exact .error
          | @directory start =>
              refine follow_alike h fun name hname hlets hsame => ?_
              obtain ⟨entry, hentry⟩ := hfile.exists_standing
              rw [← hsame] at hentry
              -- The name of the location would lead to the file.
              have hpass := hlets.resolve_left (hname ▸ name.text_ne_empty)
              have hreached := follow_name hpass name
              rw [lookup_of_standing? hentry, hname] at hreached
              exact hclear (.here hreached ((stands_of_standing? hentry).1.trans hsame))
        generalize hstep : tree.follow here segment = step at hfollow
        generalize hstep' : other.follow here' segment = step' at hfollow
        cases hfollow with
        | error =>
            rw [walk_of_error hstep, walk_of_error hstep']
            exact .error
        | ok halike =>
            cases halike with
            | reached hnext =>
                rw [walk_of_reached hstep, walk_of_reached hstep']
                exact ih hnext fun hmeets => hclear (.further hstep hmeets)
            | free =>
                rw [walk_of_free hstep, walk_of_free hstep']
                split_ifs
                · exact .ok .free
                · exact .error
            | @link directory target =>
                cases links with
                | zero =>
                    rw [walk_of_link_exhausted hstep, walk_of_link_exhausted hstep']
                    exact .error
                | succ links =>
                    by_cases htarget : target.text = ""
                    · rw [walk_of_link_untargeted hstep htarget,
                        walk_of_link_untargeted hstep' htarget]
                      exact .error
                    · rw [walk_of_link hstep htarget, walk_of_link hstep' htarget]
                      exact ihlinks links (Nat.lt_succ_self links) .directory
                        fun hmeets => hclear (.linked hstep hmeets)

/-- The path that is a name comes to its own location only, unless it is that of a link. -/
theorem isClearOf_name (name : FileName) (hne : tree.workingDirectory ++ [name] ≠ location)
    (hlink : tree.link? (tree.workingDirectory ++ [name]) = none) :
    tree.IsClearOf ⟨name.text⟩ location := by
  have hstep {step : Step} (h : tree.follow (.directory tree.workingDirectory) name.text =
      .ok step) : step = tree.lookup tree.workingDirectory name := by
    obtain ⟨_, ⟨⟩, hlets⟩ := directory_of_follow h
    rw [follow_name (hlets.resolve_left name.text_ne_empty)] at h
    exact (Except.ok.inj h).symm
  intro hmeets
  rw [start_name, segments_name] at hmeets
  rcases lookup_cases tree tree.workingDirectory name with ⟨entry, hentry, hlookup⟩ |
    ⟨target, htarget, -⟩ | ⟨-, -, hlookup⟩
  · cases hmeets with
    | here hfollow hlocation =>
        cases (hstep hfollow).trans hlookup
        exact hne ((stands_of_standing? hentry).1.symm.trans hlocation)
    | further _ hmore => cases hmore
    | linked hfollow _ => cases (hstep hfollow).trans hlookup
  · rw [hlink] at htarget
    cases htarget
  · cases hmeets with
    | here hfollow _ | linked hfollow _ => cases (hstep hfollow).trans hlookup
    | further _ hmore => cases hmore

theorem locate_alike (h : AlikeBut R location tree other) (hfile : tree.HasFile location)
    (hclear : tree.IsClearOf path location) :
    Agree (Place.Alike R) (tree.locate path) (other.locate path) := by
  rw [locate, locate, ← h.workingDirectory]
  split_ifs
  · exact .error
  · exact walk_alike h hfile .directory hclear

theorem resolve_alike (h : AlikeBut R location tree other) (hfile : tree.HasFile location)
    (hclear : tree.IsClearOf path location) :
    Agree (Entry.Alike R) (tree.resolve path) (other.resolve path) := by
  have hplace := locate_alike h hfile hclear
  rw [resolve, resolve]
  generalize tree.locate path = place at hplace
  generalize other.locate path = place' at hplace
  cases hplace with
  | error => exact .error
  | ok halike =>
      cases halike with
      | taken hentry => exact .ok hentry
      | free => exact .error

end ClearWays

section LastSteps

/-- The place of a name in a directory. -/
def placeAt (tree : FileTree) (directory : Location) (name : FileName) : Place :=
  match tree.standing? (directory ++ [name]) with
  | some entry => .taken entry
  | none => .free directory name

/-- The name of a location where no link stands leads to its place. -/
theorem leads_placeAt (hplain : tree.IsPlain (directory ++ [name]))
    (hfollow : tree.follow here segment = .ok (tree.lookup directory name)) :
    tree.Leads links here [segment] (.ok (tree.placeAt directory name)) := by
  rw [placeAt]
  cases hstanding : tree.standing? (directory ++ [name]) with
  | some entry =>
      rw [lookup_of_standing? hstanding] at hfollow
      exact .further hfollow .arrived
  | none =>
      rw [lookup_of_none hstanding hplain.link] at hfollow
      exact .free hfollow

/-- The location of the entry or of the free name that a step leads to. -/
def Step.location? : Step → Option Location
  | reached entry => some entry.location
  | free directory name => some (directory ++ [name])
  | link _ _ => none

/-- A name leads to its location, unless it is that of a link. -/
theorem location?_lookup (tree : FileTree) (start : Location) (name : FileName) :
    (tree.lookup start name).location? = some (start ++ [name]) ∨
      ∃ target, tree.link? (start ++ [name]) = some target := by
  rcases lookup_cases tree start name with ⟨entry, hentry, hlookup⟩ | ⟨target, htarget, -⟩ |
    ⟨-, -, hlookup⟩
  · rw [hlookup]
    exact .inl (congrArg some (stands_of_standing? hentry).1)
  · exact .inr ⟨target, htarget⟩
  · rw [hlookup]
    exact .inl rfl

variable {start : Location} {step : Step} {place : Place} {result : Except FileError Place}

/-- A step to the location follows its name, in the other tree as well. -/
theorem follow_to_location (h : AlikeBut R (directory ++ [name]) tree other)
    (hfollow : tree.follow (.directory start) segment = .ok step)
    (hstart : tree.isDirectory start = true) (hstep : step.location? = some (directory ++ [name])) :
    other.follow (.directory start) segment = .ok (other.lookup directory name) := by
  obtain ⟨_, ⟨⟩, hlets⟩ := directory_of_follow hfollow
  have hlets' := (lets_alike h).1 hlets
  rcases follow_cases start segment with ⟨above, habove, hcase⟩ | ⟨error, hcase⟩ |
    ⟨next, -, hcase⟩
  · rw [hcase tree hlets] at hfollow
    cases hfollow
    obtain rfl : above = directory ++ [name] := Option.some.inj hstep
    have hdirectory := isDirectory_of_under hstart habove
    rw [h.plain.isDirectory] at hdirectory
    cases hdirectory
  · rw [hcase tree hlets] at hfollow
    cases hfollow
  · rw [hcase tree hlets] at hfollow
    cases hfollow
    rcases location?_lookup tree start next with hnext | ⟨target, htarget⟩
    · obtain ⟨rfl, hname⟩ := List.append_inj' (Option.some.inj (hnext.symm.trans hstep)) rfl
      rw [hcase other hlets', List.singleton_inj.1 hname]
    · rw [lookup_of_link? htarget] at hstep
      cases hstep

/-- Any other step leads alike. -/
theorem follow_elsewhere (h : AlikeBut R location tree other)
    (hfollow : tree.follow (.directory start) segment = .ok step)
    (hstep : step.location? ≠ some location) :
    ∃ step', other.follow (.directory start) segment = .ok step' ∧ Step.Alike R step step' := by
  have halike : Agree (Step.Alike R) (tree.follow (.directory start) segment)
      (other.follow (.directory start) segment) := by
    refine follow_alike h fun name hname hlets hsame => ?_
    have hpass := hlets.resolve_left (hname ▸ name.text_ne_empty)
    rw [← hname, follow_name hpass] at hfollow
    cases hfollow
    rcases location?_lookup tree start name with hlocation | ⟨target, htarget⟩
    · exact hstep (hlocation.trans (congrArg some hsame))
    · rw [hsame, h.plain.link] at htarget
      cases htarget
  rw [hfollow] at halike
  generalize hstep' : other.follow (.directory start) segment = result at halike
  cases halike with
  | ok hsteps => exact ⟨_, rfl, hsteps⟩

/-- From a file nothing leads on. -/
theorem Leads.of_not_directory (h : tree.Leads links here way result) (hresult : result = .ok place)
    (hhere : ∀ start, here ≠ .directory start) : way = [] ∧ place = .taken here := by
  cases h with
  | arrived =>
      cases hresult
      exact ⟨rfl, rfl⟩
  | stopped _ | missing _ | untargeted _ _ | exhausted _ => cases hresult
  | further hfollow _ | free hfollow | linked hfollow _ _ =>
      obtain ⟨start, rfl, -⟩ := directory_of_follow hfollow
      exact absurd rfl (hhere start)

/-- A way that ends at the location in one tree ends there in the other. -/
theorem Leads.to_location (hleads : tree.Leads links here way result)
    (h : AlikeBut R (directory ++ [name]) tree other) (hresult : result = .ok place)
    (hplace : place.location = directory ++ [name]) (hhere : here = .directory start)
    (hstart : tree.isDirectory start = true) :
    other.Leads links here way (.ok (other.placeAt directory name)) := by
  induction hleads generalizing start with
  | arrived =>
      cases hresult
      rw [hhere] at hplace
      rw [show start = directory ++ [name] from hplace, h.plain.isDirectory] at hstart
      cases hstart
  | @further _ here next _ _ _ hfollow hrest ih =>
      subst hhere
      have hstands := follow_stands (stands_directory_iff.2 hstart) hfollow
      by_cases hnext : next.location = directory ++ [name]
      · obtain ⟨rfl, -⟩ := hrest.of_not_directory hresult (by
          rintro above rfl
          have hdirectory := stands_directory_iff.1 hstands
          rw [show above = directory ++ [name] from hnext, h.plain.isDirectory] at hdirectory
          cases hdirectory)
        exact leads_placeAt h.plain' (follow_to_location h hfollow hstart (congrArg some hnext))
      · cases next with
        | directory above =>
            obtain ⟨step', hfollow', halike⟩ := follow_elsewhere h hfollow
              fun hsame => hnext (Option.some.inj hsame)
            cases halike with
            | reached halike =>
                cases halike
                exact .further hfollow' (ih hresult rfl (stands_directory_iff.1 hstands))
        | file _ _ | sealed _ =>
            obtain ⟨-, rfl⟩ := hrest.of_not_directory hresult nofun
            exact absurd hplace hnext
  | free hfollow =>
      subst hhere
      cases hresult
      exact leads_placeAt h.plain' (follow_to_location h hfollow hstart (congrArg some hplace))
  | linked hfollow htarget _ ih =>
      subst hhere
      obtain ⟨step', hfollow', halike⟩ := follow_elsewhere h hfollow nofun
      cases halike with
      | link =>
          refine .linked hfollow' htarget (ih hresult rfl (isDirectory_start _ ?_))
          exact follow_stands (stands_directory_iff.2 hstart) hfollow
  | stopped _ | missing _ | untargeted _ _ | exhausted _ => cases hresult

/-- A path that leads to the location in one tree leads there in the other. -/
theorem locate_to_location (h : AlikeBut R (directory ++ [name]) tree other)
    (hlocate : tree.locate path = .ok place) (hplace : place.location = directory ++ [name]) :
    other.locate path = .ok (other.placeAt directory name) := by
  have hleads := (leads_of_locate hlocate).to_location h rfl hplace rfl
    (isDirectory_start path isDirectory_workingDirectory)
  rw [locate, if_neg (text_ne_empty_of_locate hlocate), ← h.workingDirectory]
  exact leads_iff.1 hleads

end LastSteps

end FileTree
end CodeSmells
