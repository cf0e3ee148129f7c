import CodeSmells.Files.Tree

/-!
# Resolution of paths

A path is followed segment by segment, from the root if it starts with a
separator and from the working directory otherwise.  A link on the way is
replaced by its target; so is one at the end.

Special files, such as devices, and the bound on the length of whole paths are
left out.
-/

namespace CodeSmells

/-- Why an operation on a file fails. -/
inductive FileError where
  | notFound
  | denied
  | notDirectory
  | isDirectory
  | nameTooLong
  | tooManyLinks
  | notText
deriving DecidableEq, Repr

/-- The message of the system. -/
def FileError.message : FileError → String
  | notFound => "No such file or directory (os error 2)"
  | denied => "Permission denied (os error 13)"
  | notDirectory => "Not a directory (os error 20)"
  | isDirectory => "Is a directory (os error 21)"
  | nameTooLong => "File name too long (os error 36)"
  | tooManyLinks => "Too many levels of symbolic links (os error 40)"
  | notText => "stream did not contain valid UTF-8"

namespace FileTree

/-- Where one step leads: to an entry, to a link, or to a name that is free. -/
inductive Step where
  | reached (entry : Entry)
  | link (directory : Location) (target : Path)
  | free (directory : Location) (name : FileName)

/-- Where a way leads: to what stands there, or to a name that is free in a directory. -/
inductive Place where
  | taken (entry : Entry)
  | free (directory : Location) (name : FileName)

/-- The location that a way leads to. -/
def Place.location : Place → Location
  | taken entry => entry.location
  | free directory name => directory ++ [name]

/-- Where a name leads from a directory. -/
def lookup (tree : FileTree) (directory : Location) (name : FileName) : Step :=
  match tree.link? (directory ++ [name]), tree.standing? (directory ++ [name]) with
  | some target, _ => .link directory target
  | none, some entry => .reached entry
  | none, none => .free directory name

/--
Take one step from a directory; steps from files lead nowhere.  A segment that
is neither empty nor dots can only be too long to be a name.
-/
def follow (tree : FileTree) (here : Entry) (segment : String) : Except FileError Step :=
  match here with
  | .file _ _ | .sealed _ => .error .notDirectory
  | .directory location =>
      if segment = "" then .ok (.reached here)
      else if tree.allows .pass location = false then .error .denied
      else if segment = "." then .ok (.reached here)
      else if segment = ".." then .ok (.reached (.directory location.dropLast))
      else
        match FileName.ofText? segment with
        | none => .error .nameTooLong
        | some name => .ok (tree.lookup location name)

def segments (path : Path) : List String :=
  (Path.segments path.text.toList).map String.ofList

/-- The directory that a path starts from, seen from a directory. -/
def start (path : Path) (here : Location) : Location :=
  if (segments path).head? = some "" then [] else here

/-- Follow segments, with a way to go on from a link. -/
def goWith (tree : FileTree) (jump : Location → Path → List String → Except FileError Place)
    (here : Entry) : List String → Except FileError Place
  | [] => .ok (.taken here)
  | segment :: rest =>
      match tree.follow here segment with
      | .error error => .error error
      | .ok (.reached next) => goWith tree jump next rest
      | .ok (.link directory target) => jump directory target rest
      | .ok (.free directory name) =>
          if rest.isEmpty then .ok (.free directory name) else .error .notFound

/-- Go on from a link in a directory: follow its target, then the rest of the way. -/
def jump (tree : FileTree) :
    Nat → Location → Path → List String → Except FileError Place
  | 0, _, _, _ => .error .tooManyLinks
  | links + 1, directory, target, rest =>
      if target.text = "" then .error .notFound
      else
        tree.goWith (tree.jump links) (.directory (start target directory))
          (segments target ++ rest)

/-- Follow segments over so many links at most. -/
def walk (tree : FileTree) (links : Nat) (here : Entry) (way : List String) :
    Except FileError Place :=
  tree.goWith (tree.jump links) here way

/-- The number of links that a path may lead over. -/
def maxLinks : Nat := 40

/-- The place that a path leads to. -/
def locate (tree : FileTree) (path : Path) : Except FileError Place :=
  if path.text = "" then .error .notFound
  else tree.walk maxLinks (.directory (start path tree.workingDirectory)) (segments path)

def resolve (tree : FileTree) (path : Path) : Except FileError Entry :=
  match tree.locate path with
  | .error error => .error error
  | .ok (.free _ _) => .error .notFound
  | .ok (.taken entry) => .ok entry

def present (tree : FileTree) (path : Path) : Bool :=
  match tree.resolve path with
  | .ok _ => true
  | .error _ => false

/-- The text of the file at a path. -/
def readText (tree : FileTree) (path : Path) : Except FileError String :=
  match tree.resolve path with
  | .error error => .error error
  | .ok (.sealed _) => .error .denied
  | .ok (.directory location) =>
      .error (if tree.allows .read location then .isDirectory else .denied)
  | .ok (.file _ bytes) =>
      match String.fromUTF8? bytes with
      | some text => .ok text
      | none => .error .notText

/-- Whether the last segment of a path can only be a directory: it is empty or dots. -/
def namesDirectory (last : String) : Bool :=
  last == "" || last == "." || last == ".."

/-- The segments before the last one that is not empty. -/
def wayToDirectory (all : List String) : List String :=
  (all.reverse.dropWhile (· == "")).tail.reverse

/-- The error of writing to a path that names a directory: the way to it counts first. -/
def directoryError (tree : FileTree) (path : Path) : FileError :=
  match tree.walk maxLinks (.directory (start path tree.workingDirectory))
      (wayToDirectory (segments path) ++ ["."]) with
  | .error error => error
  | .ok _ => .isDirectory

/-- Write a file at a place.  A file must allow it, and for a free name its directory must. -/
def writeAt (tree : FileTree) (bytes : ByteArray) : Place → Except FileError FileTree
  | .taken (.directory _) => .error .isDirectory
  | .taken (.file location _) | .taken (.sealed location) =>
      if tree.allows .write location then .ok (tree.put location bytes) else .error .denied
  | .free directory name =>
      if tree.allows .write directory then .ok (tree.put (directory ++ [name]) bytes)
      else .error .denied

/-- Write a file.  The directory must be there. -/
def write (tree : FileTree) (path : Path) (bytes : ByteArray) : Except FileError FileTree :=
  if path.text = "" then .error .notFound
  else if namesDirectory ((segments path).getLast?.getD "") then
    .error (tree.directoryError path)
  else
    match tree.locate path with
    | .error error => .error error
    | .ok place => tree.writeAt bytes place

end FileTree

end CodeSmells
