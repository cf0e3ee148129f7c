import CodeSmells.Command.Run

/-!
# The program

The program reads what the paths of its command line lead to, runs the command line
on it, and leaves the outcome: two texts, the changed files, and the exit status.
-/

namespace CodeSmells

/-- The text of a location as a path from the root. -/
def Location.absolute (location : Location) : String :=
  "/" ++ location.text

/-- A tree with the file at a location, sealed if it cannot be read. -/
def readFile (tree : FileTree) (location : Location) : IO FileTree := do
  try
    return tree.put location (← IO.FS.readBinFile location.absolute)
  catch _ => return (tree.put location ByteArray.empty).deny location .read

/-- A tree with what stands at a location.  A link leads to the end of all links. -/
def readNode (tree : FileTree) (location : Location) : IO FileTree := do
  let place := (← IO.currentDir) / location.absolute
  try
    match (← place.symlinkMetadata).type with
    | .dir => return tree.putDirectory location
    | .file => readFile tree location
    | .symlink => return tree.putLink location ⟨(← IO.FS.realPath place).toString⟩
    | .other => return tree
  catch
    | .permissionDenied _ _ _ => return tree.deny location.dropLast .pass
    | _ => return tree

/-- A tree with what stands on a way from a location, and where the way ends. -/
def readWay (tree : FileTree) (here : Location) : List String → IO (FileTree × Location)
  | [] => return (tree, here)
  | segment :: rest => do
      if segment = ".." then readWay tree here.dropLast rest
      else
        match FileName.ofText? segment with
        | none => readWay tree here rest
        | some name =>
            let tree ← readNode tree (here ++ [name])
            match tree.link? (here ++ [name]) with
            | none => readWay tree (here ++ [name]) rest
            | some target =>
                let next := Location.ofText target.text
                readWay (← readNode tree next) next rest

/-- A tree with what stands at or below locations. -/
partial def readBelow (tree : FileTree) : List Location → IO FileTree
  | [] => return tree
  | location :: rest => do
      let tree ← readNode tree location
      if tree.isDirectory location then
        let place := (← IO.currentDir) / location.absolute
        try
          let names := (← place.readDir).toList.filterMap fun e => FileName.ofText? e.fileName
          readBelow tree ((names.map fun name => location ++ [name]) ++ rest)
        catch _ => readBelow (tree.deny location .read) rest
      else readBelow tree rest

/-- What a request may read or write. -/
def readFor (request : Option Request) : IO FileTree := do
  let tree := FileTree.emptyAt (Location.ofText (← IO.currentDir).toString)
  let way (tree : FileTree) (path : Path) :=
    readWay tree (FileTree.start path tree.workingDirectory) (FileTree.segments path)
  match request with
  | some (.analyze request) =>
      let (tree, _) ← way tree (Analyze.configPath request)
      let (tree, location) ← way tree request.path
      readBelow tree [location]
  | some (.init path _) => return (← way tree path).1
  | _ => return tree

/-- Whether there are colors, and the setting of the log. -/
def readSurroundings : IO Surroundings := do
  let force ← IO.getEnv "CLICOLOR_FORCE"
  let forbid ← IO.getEnv "NO_COLOR"
  let allow ← IO.getEnv "CLICOLOR"
  let terminal ← (← IO.getStdout).isTty
  let log ← IO.getEnv "SMELLGUARD_LOG"
  return ⟨Surroundings.decideColors force forbid allow terminal, log⟩

/-- Write the files that an outcome changes; those that cannot be written are denied. -/
def writeChanges (before : FileTree) (outcome : Outcome) : IO FileTree :=
  (FileTree.changesSince before outcome.files).foldlM (fun tree (location, bytes) => do
    try
      IO.FS.writeBinFile location.absolute bytes
      return tree
    catch _ => return (tree.deny location .write).deny location.dropLast .write) before

end CodeSmells

open CodeSmells

def main (arguments : List String) : IO UInt32 := do
  let surroundings ← readSurroundings
  let before ← readFor (Request.ofArguments? arguments)
  -- Whether a file may be written is known once it has been tried.
  let before ← writeChanges before (Command.run surroundings before arguments)
  let outcome := Command.run surroundings before arguments
  (← IO.getStdout).putStr outcome.stdout
  (← IO.getStderr).putStr outcome.stderr
  return outcome.code.toUInt32
