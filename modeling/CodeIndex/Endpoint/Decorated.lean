import CodeIndex.Finding
import CodeIndex.Outline
import CodeIndex.Indented.Header
import CodeIndex.Text.Letter
import CodeIndex.Text.Lines
import CodeIndex.Text.Search

/-!
# Endpoints from route decorators

A function is an endpoint when a decorator such as `@app.route('/users')` or `@bp.get('/users')`
stands above it, at most ten lines up and with no other header line between. A decorator `route` may
list its methods.
-/

namespace CodeIndex.Endpoint

open Text

/-- A word in quotes. -/
def quotedWord : Recogniser Text := fun _ t =>
  match t with
  | q :: t =>
    if isQuote q then
      match word? t with
      | some (w, q :: rest) => if isQuote q then some (w, rest) else none
      | _ => none
    else none
  | [] => none

/-- The words in quotes of a list of methods, in capital letters. -/
def listedMethods (t : Text) : List Text := (searchAll quotedWord t).map fun hit => upper hit.value

/-- The last part of a route decorator. -/
def verbs : List Text := ["route", "get", "post", "put", "patch", "delete"].map String.toList

/-- A text in quotes at the head of a text, perhaps with a string mark before it. -/
def quotedText? (t : Text) : Option Text :=
  let t := match t with
    | m :: q :: rest =>
      if (m = 'r' || m = 'b' || m = 'u') && isQuote q then q :: rest else m :: q :: rest
    | t => t
  match t with
  | q :: t =>
    if isQuote q then
      match t.span (!isQuote ·) with
      | (path, _ :: _) => some path
      | _ => none
    else none
  | [] => none

/-- The verb, in capital letters, and the path of a route decorator on a line. -/
def routeDecorator? (line : Text) : Option (Text × Text) := do
  let t ← after? ['@'] (trimLeft line)
  let (dotted, rest) := t.span fun c => isWord c || c = '.'
  let names := splitChar '.' dotted
  let verb ← names.getLast?
  let args ← after? ['('] rest
  if names.length ≥ 2 && names.all (· ≠ []) && verbs.contains verb then
    (quotedText? (trimLeft args)).map fun path => (upper verb, path)
  else none

/-- A list of methods: `methods`, an equals sign, and the text in brackets after it. -/
def methodsList : Recogniser Text := fun _ t => do
  let t ← after? ['='] (trimLeft (← after? "methods".toList t))
  match trimLeft t with
  | b :: t =>
    if b = '[' ∨ b = '(' then
      match t.span fun c => !(c = ']' || c = ')') with
      | (inner, _ :: rest) => some (inner, rest)
      | _ => none
    else none
  | [] => none

/-- The lines above a line, the nearest one first: at most ten, up to the nearest header line. -/
def decoratorWindow (lines : List Text) (line : Int) : List Text :=
  let high := min (line - 1) lines.length
  let low := max 0 (line - 11)
  ((lines.take high.toNat).drop low.toNat).reverse.takeWhile (!Indented.isHeaderLine ·)

/-- The path and the methods that the decorators above a line give to the function on it. -/
def decoratorsAbove? (lines : List Text) (line : Int) : Option (Text × List Text) := do
  let window := decoratorWindow lines line
  let (verb, path) ← window.findSome? routeDecorator?
  let listed := window.findSome? fun l => (search? methodsList l).map fun hit =>
    listedMethods hit.value
  match listed with
  | some (m :: ms) => some (path, m :: ms)
  | _ => some (path, [if verb = "ROUTE".toList then "GET".toList else verb])

/-- Texts that show that a file asks for authentication. -/
def decoratedAuthMarkers : List Text :=
  ["@jwt_required", "@login_required", "@auth_required", "@token_required", "@requires_auth"].map
    String.toList

/-- The endpoints of the functions with route decorators, one for each method. -/
def decorated (outline : Outline) (content : Text) : List Endpoint :=
  let lines := lines content
  let authInFile := containsAny decoratedAuthMarkers content
  outline.functions.flatMap fun f =>
    match decoratorsAbove? lines f.line with
    | none => []
    | some (path, methods) =>
      let auth := authInFile || contains "auth".toList (lower (f.description.getD []))
      methods.map fun method =>
        { method, path, handler := f.name, file := outline.relativePath, line := f.line, auth }

end CodeIndex.Endpoint
