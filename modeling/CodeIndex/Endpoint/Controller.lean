import CodeIndex.Endpoint.RoutePath
import CodeIndex.Endpoint.Router

/-!
# Endpoints from controllers

A controller is a class with a `@Controller` decorator, which may give a path. A method below a
decorator such as `@Get('users')` answers requests to that path and its own.
-/

namespace CodeIndex.Endpoint

open Text

/-- A controller decorator and its path, which is empty if none is given. -/
def controller : Recogniser Text := fun _ t => do
  let t ← after? "@Controller(".toList t
  match scriptString? (trimLeft t) with
  | some (base, rest) => some (base, rest)
  | none => some ([], trimLeft t)

/-- A route decorator: its verb, and its path, which is empty if none is given. -/
def controllerRoute : Recogniser (Text × Text) := fun _ t => do
  let t ← after? ['@'] t
  let (verb, t) ← firstLiteral? (["Get", "Post", "Put", "Patch", "Delete"].map String.toList) t
  let t := trimLeft (← after? ['('] t)
  let (path, t) := (scriptString? t).getD ([], t)
  let t ← after? [')'] (trimLeft t)
  return ((verb, path), t)

/-- A character that starts a name: an ASCII letter, an underscore or a dollar sign. -/
def isNameStart (c : Char) : Bool := c.isAlpha || c = '_' || c = '$'

/-- The name at the head of a text. -/
def scriptName? : Text → Option (Text × Text)
  | c :: t =>
    if isNameStart c then
      let (rest, t) := t.span fun c => isWord c || c = '$'
      some (c :: rest, t)
    else none
  | [] => none

/-- Reads after as many of the words as possible, each followed by blanks, or after fewer of them if
that fails. -/
def afterWords {α : Type} (words : List Text) (read : Text → Option α) :
    (fuel : Nat) → Text → Option α
  | 0, t => read t
  | fuel + 1, t =>
    match (firstLiteral? words t).bind fun (_, t) => blanks1? t with
    | none => read t
    | some rest =>
      match afterWords words read fuel rest with
      | some a => some a
      | none => read t

/-- Words that may stand before the name of a method. -/
def methodModifiers : List Text :=
  ["public", "private", "protected", "static", "async"].map String.toList

/-- The name of a method at the start of a line, before an opening parenthesis. -/
def methodName : Recogniser Text := fun before t => do
  guard (startsLine before)
  let line := t.dropWhile isSpaceOrTab
  let read (t : Text) : Option (Text × Text) := do
    let (name, t) ← scriptName? t
    let t ← after? ['('] (trimLeft t)
    return (name, t)
  afterWords methodModifiers read line.length line

/-- The endpoints of the routes in a file with a controller. -/
def controllerRoutes (outline : Outline) (content : Text) : List Endpoint :=
  match search? controller content with
  | none => []
  | some base =>
    let auth := contains "@UseGuards".toList content || contains "AuthGuard".toList content
    (searchAll controllerRoute content).map fun hit =>
      let method := searchFrom? methodName (some ')') hit.stop hit.rest
      { method := upper hit.value.1, path := RoutePath.join base.value hit.value.2,
        handler := (method.map (·.value)).getD "anonymous".toList,
        file := outline.relativePath, line := lineOf content hit.start, auth }

end CodeIndex.Endpoint
