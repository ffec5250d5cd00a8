import CodeIndex.Endpoint.Decorated

/-!
# Endpoints from views

Two kinds of views: functions below an `@api_view` decorator, and the handler methods of classes
with a base whose name ends in `View`.
-/

namespace CodeIndex.Endpoint

open Text

/-- The text after the lines at its head that hold a decorator. -/
def skipDecoratorLines (t : Text) : Text :=
  match t.dropWhile isSpaceOrTab with
  | '@' :: _ =>
    match _h : cut? ['\n'] t with
    | some (_, rest) => skipDecoratorLines rest
    | none => t
  | _ => t
termination_by t.length
decreasing_by have := length_of_cut? _h; simp at this; omega

/-- The name of the function after the end of a decorator call: the rest of the call, perhaps more
decorators on lines of their own, and the header. -/
def viewFunction? (t : Text) : Option (Text × Text) := do
  let (_, t) ← cut? [')'] t
  let t ← after? ['\n'] (t.dropWhile isSpaceOrTab)
  let t := (skipDecoratorLines t).dropWhile isSpaceOrTab
  let t := ((after? "async".toList t).bind blanks1?).getD t
  word? (← blanks1? (← after? "def".toList t))

/-- A function view: the text of its list of methods, if it has one, and the name of the function.
The list is what stands in brackets first in the call. -/
def apiView : Recogniser (Option Text × Text) := fun _ t => do
  let t := trimLeft (← after? "@api_view(".toList t)
  let listed := match t with
    | b :: t =>
      if b = '[' ∨ b = '(' then
        match t.span fun c => !(c = ']' || c = ')') with
        | (inner, _ :: rest) =>
          (viewFunction? rest).map fun (name, rest) => ((some inner, name), rest)
        | _ => none
      else none
    | [] => none
  match listed with
  | some view => some view
  | none => (viewFunction? t).map fun (name, rest) => ((none, name), rest)

/-- A class header at the left margin with its bases. -/
def classBases : Recogniser (Text × Text) := fun before t => do
  guard (startsLine before)
  let (name, t) ← word? (← blanks1? (← after? "class".toList t))
  let (bases, t) ← cut? [')'] (← after? ['('] (trimLeft t))
  let t ← after? [':'] (trimLeft t)
  return ((name, bases), t)

/-- One of the bases, without its namespace, ends in `View`. -/
def hasViewBase (bases : Text) : Bool :=
  (splitChar ',' bases).any fun base =>
    endsWith "View".toList ((splitChar '.' (trim base)).getLastD [])

/-- Methods of a class view that answer requests. -/
def viewHandlers : List Text := ["get", "post", "put", "patch", "delete"].map String.toList

/-- Texts that show that a file of views asks for authentication. -/
def viewAuthMarkers : List Text :=
  ["IsAuthenticated", "permission_classes", "@login_required", "LoginRequiredMixin"].map
    String.toList

/-- The endpoints of function views, one for each method. -/
def functionViews (outline : Outline) (content : Text) (auth : Bool) : List Endpoint :=
  (searchAll apiView content).flatMap fun hit =>
    let (listed, name) := hit.value
    let methods := match listedMethods (listed.getD []) with
      | [] => ["GET".toList]
      | methods => methods
    methods.map fun method =>
      { method, path := '/' :: name ++ ['/'], handler := name, file := outline.relativePath,
        line := lineOf content (hit.stop - name.length), auth }

/-- The endpoints of class views, one for each handler method. Of several classes with one name, the
first is meant. -/
def classViews (outline : Outline) (content : Text) (auth : Bool) : List Endpoint :=
  (searchAll classBases content).flatMap fun hit =>
    let (name, bases) := hit.value
    if hasViewBase bases then
      match outline.classes.find? (·.name = name) with
      | none => []
      | some c =>
        (c.methods.filter fun m => viewHandlers.contains m.name).map fun m =>
          { method := upper m.name, path := '/' :: lower name ++ ['/'],
            handler := name ++ '.' :: m.name, file := outline.relativePath, line := m.line, auth }
    else []

/-- The endpoints of function views, then those of class views. -/
def views (outline : Outline) (content : Text) : List Endpoint :=
  let auth := containsAny viewAuthMarkers content
  functionViews outline content auth ++ classViews outline content auth

end CodeIndex.Endpoint
