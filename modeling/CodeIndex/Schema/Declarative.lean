import CodeIndex.Finding
import CodeIndex.Outline
import CodeIndex.Indented.Header
import CodeIndex.Text.Bracket
import CodeIndex.Text.Lines
import CodeIndex.Text.Search

/-!
# Tables from declarative columns

A class with properties in a file that shows a declarative base is a table. The constraints of a
column are read from the `Column(...)` or `mapped_column(...)` call that the body of the class
assigns to it.
-/

namespace CodeIndex.Schema

open Text

/-- A name, a mark and a value, with blanks between them, that stand as words of their own. -/
def setting (name : String) (mark : Char) (value : String) : Recogniser Unit := fun before t => do
  guard (isBoundary before t.head?)
  let t ← after? [mark] (trimLeft (← after? name.toList t))
  let t ← after? value.toList (trimLeft t)
  guard (isBoundary value.toList.getLast? t.head?)
  return ((), t)

/-- The arguments make the column a primary key. -/
def isPrimaryKey (call : Text) : Bool := occurs (setting "primary_key" '=' "True") call

/-- The arguments forbid null. -/
def isNotNull (call : Text) : Bool := occurs (setting "nullable" '=' "False") call

/-- The target of a foreign key: words and dots in quotes. -/
def foreignKey : Recogniser Text := fun _ t => do
  let t ← after? "ForeignKey(".toList t
  match trimLeft t with
  | q :: t =>
    if q = '"' ∨ q = '\'' then
      match t.span fun c => isWord c || c = '.' with
      | (c :: target, q :: rest) => if q = '"' ∨ q = '\'' then some (c :: target, rest) else none
      | _ => none
    else none
  | [] => none

/-- The start of a class header at the left margin. -/
def topLevelClass : Recogniser Unit := fun before t => do
  guard (startsLine before)
  let t ← blanks1? (← after? "class".toList t)
  return ((), t)

/-- The positions from the header of a class, on the given line, up to the next class header at the
left margin. -/
def classSpan (content : Text) (line : Int) : Nat × Nat :=
  let start := lineOffset content line
  let stop := match searchFromPos? topLevelClass (start + 1) content with
    | some hit => hit.start
    | none => content.length
  (start, stop)

/-- A line that assigns a column call to a name. -/
def columnAssignment (name : Text) : Recogniser Unit := fun before t => do
  guard (startsLine before)
  match t.span isSpaceOrTab with
  | ([], _) => none
  | (_, t) =>
    let t := trimLeft (← after? name t)
    let t := match t with
      | ':' :: t => t.dropWhile fun c => !(c = '=' || c = '\n')
      | t => t
    let t := trimLeft (← after? ['='] t)
    let call ← Indented.columnCall? ["Column".toList, "mapped_column".toList] t
    return ((), call.tail)

/-- The call that a part of the content assigns to a column, from its parenthesis to the matching
one, or nothing. -/
def columnCall (content : Text) (name : Text) (start stop : Nat) : Text :=
  let part := content.take stop
  match searchFromPos? (columnAssignment name) start part with
  | none => []
  | some hit => captureCall (content.drop (hit.stop - 1))

/-- A property `name: type` cut at its first colon. -/
def cutProperty (property : Text) : Text × Text :=
  match cut? [':'] property with
  | some (name, type) => (trim name, trim type)
  | none => (trim property, [])

/-- The column of a property. -/
def declarativeColumn (content : Text) (start stop : Nat) (property : Text) : Column :=
  let (name, type) := cutProperty property
  let call := columnCall content name start stop
  { name, type, nullable := !isNotNull call, primary := isPrimaryKey call,
    foreign := (search? foreignKey call).map (·.value) }

/-- Texts that show a declarative base. -/
def declarativeMarkers : List Text :=
  ["db.Model", "declarative_base", "DeclarativeBase", "Base)"].map String.toList

/-- The tables of the classes with properties in a file with a declarative base. -/
def declarativeTables (outline : Outline) (content : Text) : List Table :=
  if containsAny declarativeMarkers content then
    (outline.classes.filter (·.properties ≠ [])).map fun c =>
      let (start, stop) := classSpan content c.line
      { name := c.name, file := outline.relativePath, line := c.line,
        columns := c.properties.map (declarativeColumn content start stop) }
  else []

end CodeIndex.Schema
