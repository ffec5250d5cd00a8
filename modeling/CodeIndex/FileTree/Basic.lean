import CodeIndex.Text.Basic

/-!
# Trees of files

A file tree is a directory whose entries are files, links and directories. A place in it is the list
of names that lead there from the root directory, without following links.

* `Entry.get? p` is the entry at a place.
* `Entry.put p e` is the tree with `e` at a place, new or instead of what was there.
-/

namespace CodeIndex

/-- An entry of a file tree. -/
inductive Entry where
  | file (bytes : List UInt8)
  | directory (entries : List (Text × Entry))
  | link (target : Text)
  deriving Inhabited

/-- A place in a file tree, name by name from the root directory. -/
abbrev Place := List Text

/-- The path to a place. -/
def Place.path (p : Place) : Text := '/' :: Text.join ['/'] p

namespace Entry

/-- The entry of a name among the entries of a directory. -/
def lookup? (name : Text) : List (Text × Entry) → Option Entry
  | [] => none
  | (n, e) :: entries => if n = name then some e else lookup? name entries

/-- The entries of a directory with one of them put under a name. A new name comes last. -/
def insert (name : Text) (e : Entry) : List (Text × Entry) → List (Text × Entry)
  | [] => [(name, e)]
  | (n, old) :: entries => if n = name then (n, e) :: entries else (n, old) :: insert name e entries

/-- The entry at a place. -/
def get? : Entry → Place → Option Entry
  | e, [] => some e
  | directory entries, name :: p =>
    match lookup? name entries with
    | some e => get? e p
    | none => none
  | _, _ :: _ => none

/-- The tree with an entry put at a place whose directory exists; otherwise the tree as it is. -/
def put : Entry → Place → Entry → Entry
  | _, [], new => new
  | directory entries, [name], new => directory (insert name new entries)
  | directory entries, name :: p, new =>
    match lookup? name entries with
    | some e => directory (insert name (put e p new) entries)
    | none => directory entries
  | e, _ :: _, _ => e

/-- The entry is a directory. -/
def isDirectory : Entry → Bool
  | directory _ => true
  | _ => false

/-- The number of bytes of a file. -/
def size : Entry → Nat
  | file bytes => bytes.length
  | _ => 0

mutual

/-- The number of links in a tree. -/
def linkCount : Entry → Nat
  | file _ => 0
  | directory entries => linkCounts entries
  | link _ => 1

/-- The number of links in the entries of a directory. -/
def linkCounts : List (Text × Entry) → Nat
  | [] => 0
  | (_, e) :: entries => linkCount e + linkCounts entries

end

end Entry

end CodeIndex
