import CodeIndex.Failure
import CodeIndex.Json.Printer
import CodeIndex.Project

/-!
# The index as a JSON document

Every field of every record is written, in a fixed order; a value that is missing is null. There is
no text of an index with an integer that has too many digits.
-/

namespace CodeIndex

open Json (ofText?)

/-- An object from the names and the values of its fields. -/
def Json.ofFields (fields : List (String × Json)) : Json :=
  .obj (fields.map fun (k, j) => (k.toList, j))

/-- A list of texts. -/
def Json.ofTexts (ts : List Text) : Json := .arr (ts.map .str)

/-- A function as a document. -/
def FunctionDecl.toJson (f : FunctionDecl) : Json :=
  .ofFields [("name", .str f.name), ("params", .ofTexts f.params), ("line", .int f.line),
    ("return_type", ofText? f.returnType), ("is_async", .bool f.isAsync),
    ("is_exported", .bool f.isExported), ("description", ofText? f.description)]

/-- A class as a document. -/
def ClassDecl.toJson (c : ClassDecl) : Json :=
  .ofFields [("name", .str c.name), ("line", .int c.line),
    ("methods", .arr (c.methods.map FunctionDecl.toJson)), ("properties", .ofTexts c.properties),
    ("is_exported", .bool c.isExported), ("description", ofText? c.description)]

/-- An interface as a document. -/
def InterfaceDecl.toJson (i : InterfaceDecl) : Json :=
  .ofFields [("name", .str i.name), ("line", .int i.line), ("properties", .ofTexts i.properties),
    ("is_exported", .bool i.isExported), ("description", ofText? i.description)]

/-- An import as a document. -/
def ImportDecl.toJson (i : ImportDecl) : Json :=
  .ofFields [("source", .str i.source), ("imports", .ofTexts i.imports), ("line", .int i.line)]

/-- The lists of declarations as fields. -/
def Declarations.toFields (d : Declarations) : List (String × Json) :=
  [("functions", .arr (d.functions.map FunctionDecl.toJson)),
   ("classes", .arr (d.classes.map ClassDecl.toJson)),
   ("interfaces", .arr (d.interfaces.map InterfaceDecl.toJson)),
   ("imports", .arr (d.imports.map ImportDecl.toJson))]

/-- An outline as a document. -/
def Outline.toJson (o : Outline) : Json :=
  .ofFields ([("path", .str o.path), ("relative_path", .str o.relativePath),
    ("language", .str o.language)] ++ o.toDeclarations.toFields)

/-- An endpoint as a document. -/
def Endpoint.toJson (e : Endpoint) : Json :=
  .ofFields [("method", .str e.method), ("path", .str e.path), ("handler", .str e.handler),
    ("file", .str e.file), ("line", .int e.line), ("auth", .bool e.auth)]

/-- A column as a document. -/
def Column.toJson (c : Column) : Json :=
  .ofFields [("name", .str c.name), ("type", .str c.type), ("nullable", .bool c.nullable),
    ("primary", .bool c.primary), ("foreign", ofText? c.foreign)]

/-- A table as a document. -/
def Table.toJson (t : Table) : Json :=
  .ofFields [("name", .str t.name), ("file", .str t.file), ("line", .int t.line),
    ("columns", .arr (t.columns.map Column.toJson))]

/-- The index of a project as a document. -/
def ProjectIndex.toJson (p : ProjectIndex) : Json :=
  .ofFields [("project_name", .str p.projectName), ("generated", .str p.generated),
    ("file_count", .int p.fileCount), ("function_count", .int p.functionCount),
    ("class_count", .int p.classCount), ("files", .arr (p.files.map Outline.toJson)),
    ("tech_stack", .ofTexts p.techStack), ("api_endpoints", .arr (p.endpoints.map Endpoint.toJson)),
    ("db_schema", .arr (p.tables.map Table.toJson))]

/-- The JSON text of the index of a project, if all its integers can be written. -/
def ProjectIndex.renderJson (p : ProjectIndex) : Except Failure Text :=
  if p.toJson.isWritable then .ok p.toJson.render else .error .tooLong

end CodeIndex
