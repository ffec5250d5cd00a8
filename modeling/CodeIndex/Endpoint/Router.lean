import CodeIndex.Finding
import CodeIndex.Outline
import CodeIndex.Text.Blank
import CodeIndex.Text.Letter
import CodeIndex.Text.Lines
import CodeIndex.Text.Search

/-!
# Endpoints from router calls

A call such as `router.get('/users', ...)` on an object named `app` or `router` is an endpoint.
-/

namespace CodeIndex.Endpoint

open Text

/-- A quote of a script: single, double or a backtick. -/
def isScriptQuote (c : Char) : Bool := c = '"' || c = '\'' || c = Char.ofNat 96

/-- A text in script quotes at the head of a text: it holds no quote and ends at the one that opened
it. -/
def scriptString? : Text → Option (Text × Text)
  | q :: t =>
    if isScriptQuote q then
      match t.span (!isScriptQuote ·) with
      | (s, q' :: rest) => if q' = q then some (s, rest) else none
      | _ => none
    else none
  | [] => none

/-- The first of some literals with which a text starts, and what follows it. -/
def firstLiteral? (literals : List Text) (t : Text) : Option (Text × Text) :=
  literals.findSome? fun lit => (after? lit t).map fun rest => (lit, rest)

/-- A router call: its verb and its path. -/
def routerCall : Recogniser (Text × Text) := fun before t => do
  guard (isBoundary before t.head?)
  let (_, t) ← firstLiteral? ["app.".toList, "router.".toList] t
  let (verb, t) ← firstLiteral? (["get", "post", "put", "patch", "delete"].map String.toList) t
  let t ← after? ['('] (trimLeft t)
  let (path, t) ← scriptString? (trimLeft t)
  if path = [] then none else some ((verb, path), t)

/-- Texts that show that a router asks for authentication. -/
def routerAuthMarkers : List Text :=
  ["authenticate", "requireAuth", "isAuthenticated", "verifyToken", "authMiddleware",
    "jwt.verify"].map String.toList

/-- The endpoints of router calls. -/
def routerCalls (outline : Outline) (content : Text) : List Endpoint :=
  let auth := containsAny routerAuthMarkers content
  (searchAll routerCall content).map fun hit =>
    { method := upper hit.value.1, path := hit.value.2, handler := "anonymous".toList,
      file := outline.relativePath, line := lineOf content hit.start, auth }

end CodeIndex.Endpoint
