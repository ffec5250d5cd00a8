import CodeIndex.Generate
import CodeIndex.Json

/-!
# The service

The service answers requests for a sign of life and requests to index a repository.
-/

namespace CodeIndex.Service

/-- The title of the service. -/
def title : Text := "Omen Service".toList

/-- A request. -/
structure Request where
  method : Text
  url : Text
  body : Option Json := none

/-- The body of a response. -/
inductive Body where
  | json (j : Json)
  | text (t : Text)

/-- A response. -/
structure Response where
  status : Nat
  body : Body

/-- The resources of the service. -/
inductive Resource where
  | health
  | generate
  deriving DecidableEq, Repr

namespace Resource

/-- The path of a resource. -/
def path : Resource → Text
  | health => "/health".toList
  | generate => "/generate".toList

/-- The method that a resource takes. -/
def method : Resource → Text
  | health => "GET".toList
  | generate => "POST".toList

/-- The resource at an address, whatever stands after the question mark. Slashes at the end lead to
the same resource. -/
def ofUrl? (url : Text) : Option Resource :=
  let path := Text.before ['#'] (Text.before ['?'] url)
  let path := if Text.startsWith ['/'] path then path else '/' :: path
  [health, generate].find? (·.path = Text.stripRight (· = '/') path)

end Resource

/-- A response that says in words what is wrong. -/
def detail (status : Nat) (message : Text) : Response where
  status
  body := .json (.ofFields [("detail", .str message)])

/-- What is wrong with a part of the body of a request. -/
structure Invalid where
  kind : String
  /-- The field of the body, or none for the body itself. -/
  location : Option String
  message : String
  input : Json

/-- The problem as a document. -/
def Invalid.toJson (i : Invalid) : Json :=
  .ofFields [("type", .str i.kind.toList),
    ("loc", .arr (.str "body".toList :: i.location.toList.map fun l => .str l.toList)),
    ("msg", .str i.message.toList), ("input", i.input)]

/-- A response that lists what is wrong with the body of a request. -/
def unprocessable (problems : List Invalid) : Response where
  status := 422
  body := .json (.ofFields [("detail", .arr (problems.map Invalid.toJson))])

/-- The problem that something is missing in the body. -/
def missing (location : Option String) (input : Json) : Invalid :=
  ⟨"missing", location, "Field required", input⟩

/-- A text field of the body; `required` says that it has to be there and that null is no value of
it. -/
def textField (body : Json) (name : String) (required : Bool) : Except Invalid (Option Text) :=
  match body.get? name.toList, required with
  | none, true => .error (missing (some name) body)
  | none, false => .ok none
  | some (.str t), _ => .ok (some t)
  | some .null, false => .ok none
  | some j, _ => .error ⟨"string_type", some name, "Input should be a valid string", j⟩

/-- The repository and the format that the body of a request names. -/
def generateRequest (body : Option Json) : Except (List Invalid) (Text × Option Text) :=
  match body with
  | none | some .null => .error [missing none .null]
  | some (.obj fields) =>
    match textField (.obj fields) "path" true, textField (.obj fields) "output_format" false with
    | .ok path, .ok format => .ok (path.getD [], format)
    | .ok _, .error e => .error [e]
    | .error e, .ok _ => .error [e]
    | .error e, .error e' => .error [e, e']
  | some j =>
    .error [⟨"model_attributes_type", none,
      "Input should be a valid dictionary or object to extract fields from", j⟩]

/-- The response to a failure. -/
def failed (e : Failure) : Response :=
  match e with
  | .config c => detail 400 c.message
  | e =>
    if e.isNotFound then detail 404 e.message
    else if e.isNotDirectory then detail 400 e.message
    else { status := 500, body := .text "Internal Server Error".toList }

/-- The response to a run. -/
def generated (g : Generation) : Response where
  status := 200
  body := .json (.ofFields [("file_count", .int g.fileCount),
    ("function_count", .int g.functionCount), ("class_count", .int g.classCount),
    ("outputs", .ofTexts g.outputs)])

/-- The response to a request, with its body, and the tree after it. -/
def answer (env : Environment) (request : Request) (tree : Entry) : Response × Entry :=
  match Resource.ofUrl? request.url with
  | none => (detail 404 "Not Found".toList, tree)
  | some resource =>
    if request.method ≠ resource.method then (detail 405 "Method Not Allowed".toList, tree)
    else
      match resource with
      | .health =>
        ({ status := 200, body := .json (.ofFields [("status", .str "ok".toList)]) }, tree)
      | .generate =>
        match generateRequest request.body with
        | .error problems => (unprocessable problems, tree)
        | .ok (path, format) =>
          let outcome := Generate.run env { format } path tree
          match outcome.result with
          | .ok g => (generated g, outcome.tree)
          | .error e => (failed e, outcome.tree)

/-- The response to a request, and the tree after it. A request for the head alone gets no body. -/
def respond (env : Environment) (request : Request) (tree : Entry) : Response × Entry :=
  let (response, tree) := answer env request tree
  if request.method = "HEAD".toList then ({ response with body := .text [] }, tree)
  else (response, tree)

end CodeIndex.Service
