import CodeSmells.Files.Resolution

/-!
# Discovery of dumps

A path that leads to a file names one dump.  A path that leads to a directory
names the files below it with the extension `json`, in the order of their paths.
Links below the directory are left alone, and a directory that cannot be opened
ends the search.
-/

namespace CodeSmells

/-- Why the dumps that a path names cannot be found: the error of a place on the walk. -/
structure WalkError where
  place : Path
  error : FileError
deriving DecidableEq, Repr

namespace FileTree

/-- The path of a location below the directory that a path leads to. -/
def pathBelow (path : Path) (below : Location) : Path :=
  below.foldl (fun path name => path.child name.text) path

/-- Whether the file at a location has the extension of dumps. -/
def namesDump (location : Location) : Bool :=
  match location.getLast? with
  | some name => Path.extension? name.text == some "json"
  | none => false

/-- The locations that a tree knows of: whatever stands somewhere is at or above one of them. -/
def known (tree : FileTree) : List Location :=
  tree.workingDirectory :: tree.nodes.map Prod.fst

/-- The name that follows a directory in a location below it. -/
def nextName? (directory location : Location) : Option FileName :=
  if directory.isPrefixOf location then (location.drop directory.length).head? else none

/-- The names of the entries of a directory, in the order of their texts. -/
def listing (tree : FileTree) (directory : Location) : List FileName :=
  (tree.known.filterMap (nextName? directory)).eraseDups.mergeSort
    fun a b => (compare a.text b.text).isLE

/-- Whether a directory below another one can be opened, once those on the way are open. -/
def opens (tree : FileTree) (directory below : Location) : Bool :=
  tree.allows .read (directory ++ below) &&
    (below.isEmpty || tree.allows .pass (directory ++ below.dropLast))

/--
The files at or below a location that is below a directory, down to so many
levels, or the location of a directory that cannot be opened.
-/
def search (tree : FileTree) (directory : Location) :
    Nat → Location → Except Location (List Location)
  | 0, _ => .ok []
  | levels + 1, below =>
      match tree.standing? (directory ++ below) with
      | none => .ok []
      | some (.file _ _) | some (.sealed _) => .ok [below]
      | some (.directory _) =>
          if tree.opens directory below then
            ((tree.listing (directory ++ below)).mapM fun name =>
              tree.search directory levels (below ++ [name])).map List.flatten
          else .error below

/-- More levels than a tree has: no location has more names than all of them together. -/
def levels (tree : FileTree) : Nat :=
  tree.known.flatten.length + 1

/-- The dumps that a path names. -/
def discover (tree : FileTree) (path : Path) : Except WalkError (List Path) :=
  match tree.resolve path with
  | .error error => .error ⟨path, error⟩
  | .ok (.file _ _) | .ok (.sealed _) => .ok [path]
  | .ok (.directory directory) =>
      match tree.search directory tree.levels [] with
      | .error below => .error ⟨pathBelow path below, .denied⟩
      | .ok found =>
          let paths := (found.filter namesDump).map (pathBelow path)
          .ok (paths.mergeSort fun a b => (Path.order a b).isLE)

end FileTree
end CodeSmells
