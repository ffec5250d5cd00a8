import CodeIndex.Text.Word
import CodeIndex.Text.Search

/-!
# Route paths

`join` puts the path of a controller and that of a route together with single slashes. `ofFile?`
reads a route path off the place of a file in a file-system router: the file lies below `app/api` or
`pages/api`, a segment `[id]` is a parameter, `[...slug]` takes all that follows, and a segment in
parentheses only groups files.
-/

namespace CodeIndex.RoutePath

open Text

/-- A text without the slashes at its ends. -/
def bare (t : Text) : Text := strip (· = '/') t

/-- Two paths as one, which starts with a slash. -/
def join (base route : Text) : Text :=
  '/' :: Text.join ['/'] ([bare base, bare route].filter (· ≠ []))

/-- The two kinds of file-system routers. -/
inductive Router where
  /-- Only files named `route` are routes. -/
  | app
  /-- Every file is a route, and `index` stands for its directory. -/
  | pages
  deriving DecidableEq, Repr

/-- The rest of the line at the head of a text, which must be the last line and not be empty. -/
def lastLine? (t : Text) : Option Text :=
  match t.span (· ≠ '\n') with
  | ([], _) => none
  | (line, []) => some line
  | (line, ['\n']) => some line
  | _ => none

/-- The router and the path below its `api` directory, at the start of a path or after a slash. -/
def routerFile : Recogniser (Router × Text) := fun before t => do
  let starts := (if before = none then [t] else []) ++ (after? ['/'] t).toList
  starts.findSome? fun t =>
    [(Router.app, "app/api/".toList), (Router.pages, "pages/api/".toList)].findSome?
      fun (r, lit) => do
      let rest ← lastLine? (← after? lit t)
      return ((r, rest), [])

/-- The text before the last dot, or all of it. -/
def stem (t : Text) : Text :=
  match cut? ['.'] t.reverse with
  | some (_, s) => s.reverse
  | none => t

/-- The segment is in parentheses. -/
def isGroup (s : Text) : Bool := s.length ≥ 2 && startsWith ['('] s && endsWithChar ')' s

/-- The name of a parameter segment and whether it takes all that follows. -/
def parameter? (s : Text) : Option (Text × Bool) := do
  let s ← after? ['['] s
  let s := (after? ['['] s).getD s
  let dots := after? "...".toList s
  let (name, rest) ← word? (dots.getD s)
  if rest = [']'] ∨ rest = [']', ']'] then some (name, dots.isSome) else none

/-- A segment of a file path as a segment of a route path. -/
def segment (s : Text) : Text :=
  match parameter? s with
  | some (name, rest) => ':' :: name ++ (if rest then ['*'] else [])
  | none => s

/-- The directories of a route file, when the router takes the file for a route. -/
def directories? (r : Router) (segments : List Text) : Option (List Text) :=
  match r with
  | .app => if segments.getLast? = some "route".toList then some segments.dropLast else none
  | .pages =>
    some (if segments.getLast? = some "index".toList then segments.dropLast else segments)

/-- The route path of a file, by its path relative to the repository. -/
def ofFile? (relativePath : Text) : Option Text := do
  let hit ← search? routerFile relativePath
  let (router, rest) := hit.value
  let segments ← directories? router (splitChar '/' (stem rest))
  return '/' :: Text.join ['/'] ("api".toList :: ((segments.filter (!isGroup ·)).map segment))

end CodeIndex.RoutePath
