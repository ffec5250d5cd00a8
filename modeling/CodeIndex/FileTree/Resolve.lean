import CodeIndex.FileTree.Basic
import CodeIndex.Path
import CodeIndex.Text.Quoted
import CodeIndex.Utf8

/-!
# Where paths lead

`walk` follows a path through a tree, name by name and link by link, and fails where a name leads
nowhere or too many links are met. `realPath` also follows every link but takes what does not exist
as it is written.

* `Entry.stat path` is the entry to which a path leads.
* `Entry.resolve path` is the path without links and `..`.
-/

namespace CodeIndex

/-- Why a path cannot be used. -/
inductive FileErrorCause where
  | notFound
  | alreadyExists
  | notDirectory
  | isDirectory
  | nameTooLong
  | tooManyLinks
  /-- A path holds the character that ends paths. -/
  | nullByte
  deriving DecidableEq, Repr

/-- The number and the wording of a cause. -/
def FileErrorCause.description : FileErrorCause → Nat × String
  | notFound => (2, "No such file or directory")
  | alreadyExists => (17, "File exists")
  | notDirectory => (20, "Not a directory")
  | isDirectory => (21, "Is a directory")
  | nameTooLong => (36, "File name too long")
  | tooManyLinks => (40, "Too many levels of symbolic links")
  | nullByte => (0, "embedded null byte")

/-- A path that cannot be used, and why. -/
structure FileError where
  cause : FileErrorCause
  path : Text
  deriving DecidableEq, Repr

/-- The error in words. -/
def FileError.message (e : FileError) : Text :=
  let (number, reason) := e.cause.description
  if e.cause = .nullByte then reason.toList
  else "[Errno ".toList ++ Text.ofNat number ++ "] ".toList ++ reason.toList ++ ": ".toList ++
    Text.quoted e.path

/-- Why a path has no form without links. -/
inductive ResolveError where
  | nullByte (path : Text)
  /-- A link leads back to itself. -/
  | loop (path : Text)
  deriving DecidableEq, Repr

/-- Where a path leads: to an entry, or to a name that a directory does not have. -/
inductive Target where
  | entry (place : Place)
  | missing (directory : Place) (name : Text)
  deriving DecidableEq, Repr

namespace Place

/-- The place where a link to be followed from a directory starts. -/
def linkStart (directory : Place) (target : Text) : Place :=
  if Path.isAbsolute target then [] else directory

/-- One more name on the way, `..` being the way back. -/
def step (p : Place) (name : Text) : Place :=
  if name = [] || name = ['.'] then p
  else if name = ['.', '.'] then p.dropLast
  else p ++ [name]

end Place

/-- The most bytes of a name. -/
def maxNameSize : Nat := 255

/-- The most bytes of a path. -/
def maxPathSize : Nat := 4095

/-- The most links on a way. -/
def maxLinks : Nat := 40

namespace Entry

/-- The way along some names from a directory, with a number of links that may be followed. A link
under the last name is followed if `followLast` holds. -/
def walk (tree : Entry) (followLast : Bool) (links : Nat) (here : Place) (names : List Text) :
    Except FileErrorCause Target :=
  match names with
  | [] => .ok (.entry here)
  | name :: rest =>
    match tree.get? here with
    | some (.directory entries) =>
      if name = [] || name = ['.'] || name = ['.', '.'] then
        walk tree followLast links (here.step name) rest
      else if (Utf8.encode name).length > maxNameSize then .error .nameTooLong
      else
        match lookup? name entries with
        | none => if rest = [] then .ok (.missing here name) else .error .notFound
        | some (.link target) =>
          if rest = [] && !followLast then .ok (.entry (here ++ [name]))
          else
            match links with
            | 0 => .error .tooManyLinks
            | links + 1 =>
              walk tree followLast links (here.linkStart target) (Text.splitChar '/' target ++ rest)
        | some _ => walk tree followLast links (here ++ [name]) rest
    | _ => .error .notDirectory
termination_by (links, names.length)

/-- Where a path from the root directory leads. -/
def locate (tree : Entry) (followLast : Bool) (path : Text) : Except FileError Target :=
  if path.any (· = '\x00') then .error ⟨.nullByte, path⟩
  else if (Utf8.encode path).length > maxPathSize then .error ⟨.nameTooLong, path⟩
  else
    match walk tree followLast maxLinks [] (Path.components path) with
    | .ok target => .ok target
    | .error cause => .error ⟨cause, path⟩

/-- The entry to which a path leads. -/
def stat (tree : Entry) (path : Text) : Except FileError Entry := do
  match ← tree.locate true path with
  | .missing _ _ => throw ⟨.notFound, path⟩
  | .entry place =>
    match tree.get? place with
    | some e => return e
    | none => throw ⟨.notFound, path⟩

/-- The entry to which a path leads, if there is one. A name that is too long is an error all the
same. -/
def stat? (tree : Entry) (path : Text) : Except FileError (Option Entry) :=
  match tree.stat path with
  | .ok e => .ok (some e)
  | .error e => if e.cause = .nameTooLong then .error e else .ok none

/-- The path leads to an entry. -/
def pathExists (tree : Entry) (path : Text) : Except FileError Bool :=
  (·.isSome) <$> tree.stat? path

/-- The path leads to a directory. -/
def pathIsDirectory (tree : Entry) (path : Text) : Except FileError Bool :=
  (·.any isDirectory) <$> tree.stat? path

/-- The bytes of the file to which a path leads. -/
def readFile (tree : Entry) (path : Text) : Except FileError (List UInt8) := do
  match ← tree.stat path with
  | .file bytes => return bytes
  | _ => throw ⟨.isDirectory, path⟩

/-! ## Paths without links -/

/-- The place to which some names lead from a place, all links followed, and whether that is so:
where a link leads back to itself, the names after it are taken as they are written. `busy` are the
links that are being followed, and at most `budget` more can be. -/
def followLinks (tree : Entry) (budget : Nat) (busy : List Place) (here : Place)
    (names : List Text) : Place × Bool :=
  match names with
  | [] => (here, true)
  | name :: rest =>
    if name = [] || name = ['.'] || name = ['.', '.'] then
      followLinks tree budget busy (here.step name) rest
    else
      match tree.get? (here ++ [name]) with
      | some (.link target) =>
        match budget with
        | 0 => (rest.foldl Place.step (here ++ [name]), false)
        | budget + 1 =>
          if busy.contains (here ++ [name]) then (rest.foldl Place.step (here ++ [name]), false)
          else
            match followLinks tree budget ((here ++ [name]) :: busy) (here.linkStart target)
                (Text.splitChar '/' target) with
            | (p, true) => followLinks tree (budget + 1) busy p rest
            | (p, false) => (rest.foldl Place.step p, false)
      | _ => followLinks tree budget busy (here ++ [name]) rest
termination_by (budget, names.length)

/-- The path from the root directory without links and `..`. What does not exist stays as it is
written. -/
def resolve (tree : Entry) (path : Text) : Except ResolveError Text :=
  if path.any (· = '\x00') then .error (.nullByte path)
  else
    let real := (tree.followLinks tree.linkCount [] [] (Path.components path)).1.path
    match tree.stat real with
    | .error ⟨.tooManyLinks, _⟩ => .error (.loop real)
    | _ => .ok real

end Entry

end CodeIndex
