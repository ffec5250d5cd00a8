import CodeIndex.Schema.Declarative

/-!
# Tables from model fields

A class whose span holds fields such as `name = models.CharField(...)` is a table, in a file that
mentions `models.Model`.
-/

namespace CodeIndex.Schema

open Text

/-- A line that assigns a model field: the name of the column and the kind of the field. The rest
starts with the parenthesis after it. -/
def modelField : Recogniser (Text × Text) := fun before t => do
  guard (startsLine before)
  match t.span isSpaceOrTab with
  | ([], _) => none
  | (_, t) =>
    let (name, t) ← word? t
    let t ← after? ['='] (trimLeft t)
    let (kind, t) ← word? (← after? "models.".toList (trimLeft t))
    let t ← after? ['('] t
    return ((name, kind), t)

/-- Kinds of fields that refer to another table. -/
def relationFields : List Text :=
  ["ForeignKey", "OneToOneField", "ManyToManyField"].map String.toList

/-- What a relation field refers to: its first argument, without its name and quotes. -/
def relationTarget? (args : Text) : Option Text :=
  (arguments args).head?.map fun target =>
    let target := ((after? "to=".toList target).map trim).getD target
    strip (fun c => c = '\'' || c = '"') target

/-- The column of a model field with the text after its opening parenthesis. -/
def modelColumn (name kind rest : Text) : Column :=
  let args := callArguments (captureCall ('(' :: rest))
  { name, type := kind, nullable := occurs (setting "null" '=' "True") args,
    primary := isPrimaryKey args,
    foreign := if relationFields.contains kind then relationTarget? args else none }

/-- The columns in the span of a class. -/
def modelColumns (content : Text) (line : Int) : List Column :=
  let (start, stop) := classSpan content line
  (searchAll modelField ((content.take stop).drop start)).map fun hit =>
    modelColumn hit.value.1 hit.value.2 hit.rest

/-- The tables of the classes with model fields. -/
def modelTables (outline : Outline) (content : Text) : List Table :=
  if contains "models.Model".toList content then
    outline.classes.filterMap fun c =>
      match modelColumns content c.line with
      | [] => none
      | columns => some { name := c.name, file := outline.relativePath, line := c.line, columns }
  else []

end CodeIndex.Schema
