import CodeSmells.Files.Location

/-!
# File trees

A `FileTree` is what stands below the root: files with their bytes, directories
and links, each at a location of its own, what may not be done with them, and the
directory that relative paths start from.

**Results.**

* `file?_put_self`, `file?_put_of_ne`: what a file holds after one has been put.
-/

namespace CodeSmells

/-- Ways to use a file or a directory; to pass is to look up a name in a directory. -/
inductive Access where
  | read
  | write
  | pass
deriving DecidableEq, Repr

/-- What a tree holds at a location. -/
inductive FileTree.Node where
  | file (bytes : ByteArray)
  | directory
  | link (target : Path)

namespace FileTree.Node

def isDirectory : Node → Bool
  | directory => true
  | _ => false

def bytes? : Node → Option ByteArray
  | file bytes => some bytes
  | _ => none

def target? : Node → Option Path
  | link target => some target
  | _ => none

end FileTree.Node

/-- Files, directories and links below the root. -/
structure FileTree where
  nodes : List (Location × FileTree.Node)
  /-- What may not be done where. -/
  denied : List (Location × Access)
  workingDirectory : Location
  distinct : (nodes.map Prod.fst).Nodup

namespace FileTree

/-- Nothing but a working directory. -/
def emptyAt (workingDirectory : Location) : FileTree :=
  ⟨[], [], workingDirectory, List.nodup_nil⟩

def empty : FileTree :=
  emptyAt []

def node? (tree : FileTree) (location : Location) : Option Node :=
  tree.nodes.lookup location

def file? (tree : FileTree) (location : Location) : Option ByteArray :=
  (tree.node? location).bind Node.bytes?

def allows (tree : FileTree) (access : Access) (location : Location) : Bool :=
  !tree.denied.contains (location, access)

/--
Whether a directory stands at a location: it is held there, something is held
below it, or the working directory is.
-/
def isDirectory (tree : FileTree) (location : Location) : Bool :=
  location.isPrefixOf tree.workingDirectory ||
    tree.nodes.any fun e =>
      location.isPrefixOf e.1 && (decide (location.length < e.1.length) || e.2.isDirectory)

/-- What a path can lead to. -/
inductive Entry where
  | file (location : Location) (bytes : ByteArray)
  /-- A file that may not be read. -/
  | sealed (location : Location)
  | directory (location : Location)

def Entry.location : Entry → Location
  | file location _ | sealed location | directory location => location

/-- The file or directory that stands at a location. -/
def standing? (tree : FileTree) (location : Location) : Option Entry :=
  if tree.isDirectory location then some (.directory location)
  else
    (tree.file? location).map fun bytes =>
      if tree.allows .read location then .file location bytes else .sealed location

/-- The target of the link that stands at a location. -/
def link? (tree : FileTree) (location : Location) : Option Path :=
  if tree.isDirectory location then none else (tree.node? location).bind Node.target?

/-- Hold a node in the place of another, or add it. -/
def set (tree : FileTree) (location : Location) (node : Node) : FileTree where
  nodes := (location, node) :: tree.nodes.filter fun e => e.1 != location
  denied := tree.denied
  workingDirectory := tree.workingDirectory
  distinct := by
    rw [List.map_cons, List.nodup_cons]
    constructor
    · simp
    · exact tree.distinct.sublist (List.filter_sublist.map Prod.fst)

/-- Put bytes in the place of those of a file, or add the file. -/
def put (tree : FileTree) (location : Location) (bytes : ByteArray) : FileTree :=
  tree.set location (.file bytes)

def putDirectory (tree : FileTree) (location : Location) : FileTree :=
  tree.set location .directory

def putLink (tree : FileTree) (location : Location) (target : Path) : FileTree :=
  tree.set location (.link target)

def deny (tree : FileTree) (location : Location) (access : Access) : FileTree :=
  { tree with denied := (location, access) :: tree.denied }

/-- The files that are new or other than before. -/
def changesSince (before after : FileTree) : List (Location × ByteArray) :=
  after.nodes.filterMap fun e =>
    e.2.bytes?.bind fun bytes =>
      if (before.file? e.1).map ByteArray.data = some bytes.data then none else some (e.1, bytes)

theorem node?_set_self (tree : FileTree) (location : Location) (node : Node) :
    (tree.set location node).node? location = some node := by
  simp [node?, set]

theorem node?_set_of_ne (tree : FileTree) {location other : Location} (node : Node)
    (h : other ≠ location) : (tree.set location node).node? other = tree.node? other := by
  have hne : (other == location) = false := by simpa using h
  simp only [node?, set, List.lookup_cons, hne]
  induction tree.nodes with
  | nil => rfl
  | cons e rest ih =>
      obtain ⟨key, value⟩ := e
      by_cases he : key = location
      · subst he
        simp [List.lookup_cons, hne, ih]
      · simp [List.lookup_cons, he, ih]

@[simp] theorem file?_put_self (tree : FileTree) (location : Location) (bytes : ByteArray) :
    (tree.put location bytes).file? location = some bytes := by
  rw [put, file?, node?_set_self]
  rfl

theorem file?_put_of_ne (tree : FileTree) {location other : Location} (bytes : ByteArray)
    (h : other ≠ location) : (tree.put location bytes).file? other = tree.file? other := by
  rw [put, file?, node?_set_of_ne tree _ h, file?]

end FileTree

end CodeSmells
