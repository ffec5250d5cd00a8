import CodeIndex.Endpoint.RoutePath
import CodeIndex.Finding
import CodeIndex.Outline
import CodeIndex.Text.Blank

/-!
# Endpoints from the place of a file

In a file-system router a file is a route. It answers the methods after which it names exported
functions, or it has one default export.
-/

namespace CodeIndex.Endpoint

open Text

/-- A default export at the start of a line. -/
def defaultExport : Recogniser Unit := fun before t => do
  guard (startsLine before)
  let t ← blanks1? (← after? "export".toList (trimLeft t))
  let t ← after? "default".toList t
  guard (isBoundary (some 't') t.head?)
  return ((), t)

/-- Texts that show that a route file asks for authentication. -/
def fileRouteAuthMarkers : List Text :=
  ["getServerSession", "getToken", "auth(", "withAuth"].map String.toList

/-- The methods that a route file may export a function for, in the order in which they are
listed. -/
def httpMethods : List Text := ["GET", "POST", "PUT", "PATCH", "DELETE"].map String.toList

/-- The endpoints of a route file. -/
def fileRoutes (outline : Outline) (content : Text) : List Endpoint :=
  match RoutePath.ofFile? outline.relativePath with
  | none => []
  | some path =>
    let auth := containsAny fileRouteAuthMarkers content
    let exported := (outline.functions.filter (·.isExported)).map (·.name)
    let endpoint (method handler : Text) : Endpoint :=
      { method, path, handler, file := outline.relativePath, line := 1, auth }
    match httpMethods.filter exported.contains with
    | [] => if occurs defaultExport content then [endpoint "GET".toList "default".toList] else []
    | methods => methods.map fun m => endpoint m m

end CodeIndex.Endpoint
