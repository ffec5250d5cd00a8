import CodeIndex.FileTree.Changes
import CodeIndex.Program
import CodeIndex.Timestamp

/-!
# The command line

Takes a picture of the repository on disk, runs the program on it, and writes back the files that it
changed.
-/

namespace CodeIndex.Disk

/-- The bytes of a file on disk, if it can be read. -/
def readFile? (path : String) : IO (Option (List UInt8)) := do
  try return some (← IO.FS.readBinFile path).toList
  catch _ => return none

/-- A directory on disk. A link to a file counts as that file, a link to a directory is left out,
and the directories that no scan enters are taken as empty. -/
partial def readDirectory (path : String) : IO Entry := do
  let mut entries : List (Text × Entry) := []
  let directory ← IO.FS.realPath path
  for e in ← directory.readDir do
    let name := e.fileName.toList
    let child := e.path.toString
    match (← e.path.symlinkMetadata).type with
    | .dir =>
      if Scan.excludedDirectories.contains name && name ≠ defaultOutputPath then
        entries := (name, .directory []) :: entries
      else entries := (name, ← readDirectory child) :: entries
    | _ =>
      match ← readFile? child with
      | some bytes => entries := (name, .file bytes) :: entries
      | none => unless ← e.path.isDir do entries := (name, .link (name ++ ['~'])) :: entries
  return .directory entries.reverse

/-- The tree with an entry at a path, and the directories above it. -/
def plant (tree : Entry) (path : Text) (e : Entry) : Entry :=
  ((Edit.makeDirectories (Path.parent path)).run tree).2.put (Path.components path) e

/-- The reports that are already on disk, where they lie outside the repository. -/
def readReports (s : Settings) (tree : Entry) : IO Entry := do
  let mut tree := tree
  for name in [".gitignore", "AI_CONTEXT.md", "AI_CONTEXT.json"] do
    let path := Path.append s.outputDirectory name.toList
    if let some bytes ← readFile? (String.ofList path) then
      tree := ((Edit.makeDirectories s.outputDirectory *> Edit.writeFile path bytes).run tree).2
  return tree

/-- What is at a path without links: a directory, a file, or nothing that can be read. -/
def readPath? (path : String) : IO (Option Entry) := do
  if let some bytes ← readFile? path then return some (.file bytes)
  try return some (← readDirectory path)
  catch _ => return none

/-- The path on disk without links and `..`, if there is one. -/
def realPath? (path : Text) : IO (Option Text) := do
  try return some (← IO.FS.realPath (String.ofList path)).toString.toList
  catch _ => return none

/-- The part of the disk that a run on the repository at a path looks at. -/
def read (env : Environment) (overrides : Overrides) (path : Text) : IO Entry := do
  let working := ((Edit.makeDirectories env.workingDirectory).run (.directory [])).2
  match env.expandHome path with
  | .error _ => return working
  | .ok path =>
    match ← realPath? (Path.append env.workingDirectory path) with
    | none => return working
    | some root =>
      match ← readPath? (String.ofList root) with
      | none => return working
      | some repository =>
        let tree := plant working root repository
        match Generate.settings env overrides tree root with
        | .ok s => readReports s tree
        | .error _ => return tree

/-- Writes to disk what a run changed. -/
def write (old new : Entry) : IO Unit := do
  for (place, bytes) in old.changes [] new do
    IO.FS.createDirAll (String.ofList (Place.path place.dropLast))
    IO.FS.writeBinFile (String.ofList place.path) ⟨bytes.toArray⟩

/-- The time now, read off a new file. -/
def now : IO Text := do
  let (_, path) ← IO.FS.createTempFile
  let time := (← path.metadata).modified
  IO.FS.removeFile path
  return Timestamp.text time.sec (time.nsec.toNat / 1000)

end CodeIndex.Disk

open CodeIndex in
/-- Runs the program on the arguments of the command line. -/
def main (arguments : List String) : IO UInt32 := do
  let arguments := arguments.map String.toList
  let env : Environment := {
    workingDirectory := (← IO.currentDir).toString.toList
    home := (← IO.getEnv "HOME").map String.toList
    time := ← Disk.now }
  let tree ← match CommandLine.parse arguments with
    | .ok { command := .generate path overrides, .. } => Disk.read env overrides path
    | _ => pure (.directory [])
  let outcome := Program.run env arguments tree
  Disk.write tree outcome.tree
  match outcome.result with
  | .ok exit =>
    (← IO.getStdout).putStr (String.ofList exit.output)
    (← IO.getStderr).putStr (String.ofList exit.errors)
    return exit.code.toUInt32
  | .error e =>
    (← IO.getStderr).putStr (String.ofList (e.message ++ ['\n']))
    return 1
