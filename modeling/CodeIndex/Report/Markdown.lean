import CodeIndex.Failure
import CodeIndex.Project

/-!
# The index as a Markdown document

The document gives the technologies, the totals, the endpoints and tables as Markdown tables, and
then the declarations file by file under a heading for each directory.
-/

namespace CodeIndex

namespace Markdown

/-- The texts one after the other. -/
def cat (parts : List Text) : Text := parts.flatten

/-- The texts with commas between them. -/
def commas (ts : List Text) : Text := Text.join ", ".toList ts

/-- A text that is there and not empty. -/
def nonempty? : Option Text → Option Text
  | some (c :: t) => some (c :: t)
  | _ => none

/-- A text with a mark before it, or nothing when there is no text. -/
def suffixed (mark : String) (t : Option Text) : Text :=
  match nonempty? t with
  | some t => mark.toList ++ t
  | none => []

/-- The signature of a function as an entry of a list. -/
def signature (f : FunctionDecl) : Text :=
  cat ["`".toList, if f.isAsync then "async ".toList else [], f.name, "(".toList, commas f.params,
    ")".toList, suffixed " -> " f.returnType, "` (line ".toList, Text.ofInt f.line, ")".toList,
    suffixed " - " f.description]

/-- The lines of a class. -/
def classLines (c : ClassDecl) : List Text :=
  [cat ["**Class `".toList, c.name, "`** (line ".toList, Text.ofInt c.line, ")".toList]]
  ++ ((nonempty? c.description).map ("> ".toList ++ ·)).toList
  ++ (if c.properties = [] then [] else ["- Properties: ".toList ++ commas c.properties])
  ++ (if c.methods = [] then []
      else "- Methods:".toList :: c.methods.map fun m => "  - ".toList ++ signature m)
  ++ [[]]

/-- A heading and a list of entries, or nothing when there are no entries. -/
def listSection (heading : String) (entries : List Text) : List Text :=
  if entries = [] then [] else heading.toList :: entries ++ [[]]

/-- The entry of an interface. -/
def interfaceEntry (i : InterfaceDecl) : Text :=
  let fields := commas i.properties
  cat ["- `".toList, i.name, "`".toList,
    if fields = [] then [] else cat [" \x7b ".toList, fields, " \x7d".toList],
    suffixed " - " i.description]

/-- The entry of an import. -/
def importEntry (i : ImportDecl) : Text :=
  let names := commas i.imports
  cat ["- `".toList, i.source, "`".toList, if names = [] then [] else ": ".toList ++ names]

/-- The lines of a file. -/
def fileLines (o : Outline) : List Text :=
  [cat ["#### `".toList, o.relativePath, "` (".toList, o.language, ")".toList], []]
  ++ o.classes.flatMap classLines
  ++ listSection "**Functions:**" (o.functions.map fun f => "- ".toList ++ signature f)
  ++ listSection "**Types:**" (o.interfaces.map interfaceEntry)
  ++ listSection "**Imports:**" (o.imports.map importEntry)

/-- The directory part of a relative path, or a dot. -/
def directory (relativePath : Text) : Text :=
  match Text.cut? ['/'] relativePath.reverse with
  | some (_, c :: head) => (c :: head).reverse
  | _ => ['.']

/-- Neighbouring files of one directory, each group with its directory. -/
def groups : List Outline → List (Text × List Outline)
  | [] => []
  | o :: rest =>
    let dir := directory o.relativePath
    match groups rest with
    | (dir', os) :: more =>
      if dir = dir' then (dir, o :: os) :: more else (dir, [o]) :: (dir', os) :: more
    | [] => [(dir, [o])]

/-- A row of a table. -/
def row (cells : List Text) : Text :=
  cat [['|'], cells.flatMap fun c => cat [" ".toList, c, " |".toList]]

/-- The text yes or no. -/
def yesNo (b : Bool) : Text := if b then "yes".toList else "no".toList

/-- A text in code quotes. -/
def code (t : Text) : Text := cat ["`".toList, t, "`".toList]

/-- A place in a file. -/
def location (file : Text) (line : Int) : Text := file ++ ':' :: Text.ofInt line

/-- A text, or a hyphen when it is empty. -/
def orHyphen (t : Text) : Text := if t = [] then ['-'] else t

/-- The row of an endpoint. -/
def endpointRow (e : Endpoint) : Text :=
  row [e.method, code e.path, e.handler, yesNo e.auth, location e.file e.line]

/-- What makes a column a key. -/
def keys (c : Column) : Text :=
  commas ((if c.primary then ["PK".toList] else [])
    ++ ((nonempty? c.foreign).map ("FK -> ".toList ++ ·)).toList)

/-- The row of a column. -/
def columnRow (c : Column) : Text :=
  row [c.name, orHyphen c.type, yesNo c.nullable, orHyphen (keys c)]

/-- The lines of a table of the schema. -/
def tableLines (t : Table) : List Text :=
  ["### ".toList ++ t.name, [], "Defined in ".toList ++ code (location t.file t.line), []]
  ++ (if t.columns = [] then []
      else "| Column | Type | Nullable | Key |".toList ::
        "|--------|------|----------|-----|".toList :: t.columns.map columnRow ++ [[]])

/-- The row of a total. -/
def totalRow (name : String) (n : Int) : Text := row [name.toList, Text.ofInt n]

/-- All lines of the document. -/
def documentLines (p : ProjectIndex) : List Text :=
  ["# AI Context: ".toList ++ p.projectName, [], "Generated: ".toList ++ p.generated, []]
  ++ (if p.techStack = [] then []
      else "## Tech Stack".toList :: [] :: p.techStack.map ("- ".toList ++ ·) ++ [[]])
  ++ ["## Statistics".toList, [], "| Metric | Count |".toList, "|--------|-------|".toList,
      totalRow "Files" p.fileCount, totalRow "Functions" p.functionCount,
      totalRow "Classes" p.classCount, totalRow "API Endpoints" p.endpoints.length,
      totalRow "Database Tables" p.tables.length, []]
  ++ (if p.endpoints = [] then []
      else "## API Endpoints".toList :: []
        :: "| Method | Path | Handler | Auth | Location |".toList
        :: "|--------|------|---------|------|----------|".toList
        :: p.endpoints.map endpointRow ++ [[]])
  ++ (if p.tables = [] then []
      else "## Database Schema".toList :: [] :: p.tables.flatMap tableLines)
  ++ (if p.files = [] then []
      else "## Files".toList :: [] :: (groups p.files).flatMap fun (dir, os) =>
        cat ["### ".toList, dir, "/".toList] :: [] :: os.flatMap fileLines)
  ++ ["---".toList, [],
      ("Regenerate this file with `omen generate`. Feed it to an assistant as project "
        ++ "context before asking about the codebase.").toList, []]

end Markdown

/-- The Markdown text of the index of a project. -/
def ProjectIndex.renderMarkdown (p : ProjectIndex) : Text :=
  Text.join ['\n'] (Markdown.documentLines p)

/-- The integers that the Markdown text of the index of a project shows, other than lengths of
lists. -/
def ProjectIndex.shownIntegers (p : ProjectIndex) : List Int :=
  [p.fileCount, p.functionCount, p.classCount] ++ p.endpoints.map (·.line) ++
    p.tables.map (·.line) ++ p.files.flatMap fun o =>
      o.classes.flatMap (fun c => c.line :: c.methods.map (·.line)) ++ o.functions.map (·.line)

/-- The Markdown text of the index of a project, if all integers that it shows can be written. -/
def ProjectIndex.markdownReport (p : ProjectIndex) : Except Failure Text :=
  if p.shownIntegers.all Text.isShort then .ok p.renderMarkdown else .error .tooLong

end CodeIndex
