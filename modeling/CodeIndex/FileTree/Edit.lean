import CodeIndex.FileTree.Resolve

/-!
# Changes of a file tree

An edit changes a tree and may fail; what it changed before it failed remains.

* `writeFile` writes a file whole, through links, and makes it if there is none.
* `makeDirectory` makes one directory, `makeDirectories` also those above it.
-/

namespace CodeIndex

/-- A change of a file tree that may fail. -/
abbrev Edit (ε : Type) := ExceptT ε (StateM Entry)

/-- A change of a file tree that may fail on a path. -/
abbrev FileEdit := Edit FileError

namespace Edit

/-- What a tree answers, without a change of it. -/
def ask {α : Type} (question : Entry → Except FileError α) : FileEdit α := do
  match question (← get) with
  | .ok a => return a
  | .error e => throw e

/-- The file to which a path leads gets the bytes that `write` makes of its bytes, none for a new
file. -/
def updateFile (path : Text) (write : List UInt8 → List UInt8) : FileEdit Unit := do
  match ← ask (·.locate true path) with
  | .missing directory name => modify (·.put (directory ++ [name]) (.file (write [])))
  | .entry place =>
    match (← get).get? place with
    | some (.file bytes) => modify (·.put place (.file (write bytes)))
    | _ => throw ⟨.isDirectory, path⟩

/-- The file to which a path leads holds some bytes and no others. -/
def writeFile (path : Text) (bytes : List UInt8) : FileEdit Unit := updateFile path fun _ => bytes

/-- The file to which a path leads gets some bytes after those that it has. -/
def appendFile (path : Text) (bytes : List UInt8) : FileEdit Unit := updateFile path (· ++ bytes)

/-- A new entry under a name that is not in use. -/
def make (path : Text) (e : Entry) : FileEdit Unit := do
  match ← ask (·.locate false path) with
  | .missing directory name => modify (·.put (directory ++ [name]) e)
  | .entry _ => throw ⟨.alreadyExists, path⟩

/-- A new directory. -/
def makeDirectory (path : Text) : FileEdit Unit := make path (.directory [])

/-- A new link. -/
def makeLink (path target : Text) : FileEdit Unit := make path (.link target)

/-- The directory with some components, the last one first, and those above it, as far as they do
not exist yet. -/
def makeDirectoriesAt (anchor : Text) : (reversed : List Text) → FileEdit Unit
  | [] => return
  | name :: above => do
    let path := Path.ofComponents anchor (name :: above).reverse
    let remake (e : FileError) : FileEdit Unit := do
      unless ← ask (·.pathIsDirectory path) do throw e
    tryCatch (makeDirectory path) fun e => do
      if e.cause = .notFound then
        makeDirectoriesAt anchor above
        tryCatch (makeDirectory path) fun e => if e.cause = .notFound then throw e else remake e
      else remake e

/-- The directory to which a path leads and those above it, as far as they do not exist yet. -/
def makeDirectories (path : Text) : FileEdit Unit :=
  makeDirectoriesAt (Path.anchor path) (Path.components path).reverse

end Edit

end CodeIndex
