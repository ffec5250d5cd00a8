import CodeIndex.Config.Value
import CodeIndex.Failure
import CodeIndex.Outline
import CodeIndex.Text.Lines

/-!
# Settings

The settings of a run, read from a configuration document in the root of the repository. What the
document leaves open has a default. `Settings.override` changes some of them for one run, all or
none.
-/

namespace CodeIndex

/-- Which reports are written. -/
inductive OutputFormat where
  | markdown
  | json
  | both
  deriving DecidableEq, Repr

namespace OutputFormat

/-- The name of a format. -/
def name : OutputFormat → Text
  | markdown => "markdown".toList
  | json => "json".toList
  | both => "both".toList

/-- All formats. -/
def all : List OutputFormat := [markdown, json, both]

/-- The format that a text names, whatever the case of its letters and the blanks around them. -/
def ofText (t : Text) : Except ConfigError OutputFormat :=
  match all.find? (·.name = Text.lower (Text.trim t)) with
  | some f => .ok f
  | none => .error (.unknownFormat t)

/-- The Markdown report is written. -/
def hasMarkdown (f : OutputFormat) : Bool := f ≠ json

/-- The JSON report is written. -/
def hasJson (f : OutputFormat) : Bool := f ≠ markdown

end OutputFormat

/-- The name of the configuration file. -/
def settingsFileName : Text := ".omen.yml".toList

/-- The directory of the reports where none is given. -/
def defaultOutputPath : Text := ".omen-code-index".toList

/-- The patterns to exclude where none are given. -/
def defaultExcludes : List Text :=
  ["node_modules/", "dist/", "build/", "*.test.*", "*.spec.*"].map String.toList

/-- The most bytes of an indexed file where no number is given. -/
def defaultMaxFileSize : Int := 1024 * 1024

/-- The settings of a run. -/
structure Settings where
  /-- The directory of the configuration file. -/
  root : Text
  outputPath : Text := defaultOutputPath
  format : OutputFormat := .markdown
  includeClasses : Bool := true
  includeInterfaces : Bool := true
  includeImports : Bool := false
  excludePaths : List Text := defaultExcludes
  maxFileSize : Int := defaultMaxFileSize
  deriving DecidableEq, Repr

/-- Settings that replace those of the configuration for one run. -/
structure Overrides where
  outputPath : Option Text := none
  format : Option Text := none
  includeImports : Option Bool := none
  deriving DecidableEq, Repr

namespace Settings

/-- The output path names the root itself. -/
def writesToRoot (s : Settings) : Bool := s.outputPath = [] || s.outputPath = ['.']

/-- The directory of the reports. -/
def outputDirectory (s : Settings) : Text :=
  if s.writesToRoot then s.root else Path.append s.root s.outputPath

/-- The patterns to exclude in a scan: those of the configuration, and the directory of the
reports. -/
def scanExcludes (s : Settings) : List Text :=
  if s.writesToRoot then s.excludePaths
  else s.excludePaths ++ ['/' :: Text.strip (· = '/') s.outputPath ++ ['/']]

/-- The kinds of records that the reports show. -/
def shown (s : Settings) : OutlineOptions where
  classes := s.includeClasses
  interfaces := s.includeInterfaces
  imports := s.includeImports

/-- The settings with some of them replaced. A format that is not known leaves all as they were. -/
def override (s : Settings) (o : Overrides) : Except ConfigError Settings := do
  let format ← match o.format with
    | some t => OutputFormat.ofText t
    | none => pure s.format
  return { s with
    outputPath := o.outputPath.getD s.outputPath
    format
    includeImports := o.includeImports.getD s.includeImports }

/-- The text that the value of a setting gives, if it is there and of a usable kind. An integer may
have too many digits to be written. -/
def textOf? (v : Option Value) : Except Failure (Option Text) :=
  if v.all Value.isWritable then .ok (v.bind Value.asText?) else .error .tooLong

/-- The format that a text names, if there is one. -/
def formatOr (default : OutputFormat) : Option Text → Except ConfigError OutputFormat
  | some t => OutputFormat.ofText t
  | none => .ok default

/-- The texts that the value of a setting gives, if it is there. Again no integer may have too many
digits. -/
def textsOr (default : List Text) : Option Value → Except Failure (List Text)
  | some v =>
    if v.elements.all Value.isWritable then .ok v.asTexts else .error .tooLong
  | none => .ok default

/-- A number of bytes, if there is one, which has to be positive. -/
def sizeOr (default : Int) : Option Int → Except ConfigError Int
  | some n => if n ≤ 0 then .error .sizeNotPositive else .ok n
  | none => .ok default

/-- The settings with those of the section on output. -/
def withOutput (s : Settings) (output : Value) : Except Failure Settings := do
  let path ← textOf? (output.get? "path")
  let format ← (formatOr s.format (← textOf? (output.get? "format"))).mapError .config
  return { s with outputPath := path.getD s.outputPath, format }

/-- The settings with those of the section on the index. -/
def withIndex (s : Settings) (index : Value) : Settings :=
  let switch (key : String) (default : Bool) : Bool :=
    ((index.get? key).bind Value.asBool?).getD default
  { s with
    includeClasses := switch "classes" s.includeClasses
    includeInterfaces := switch "interfaces" s.includeInterfaces
    includeImports := switch "imports" s.includeImports }

/-- The settings with those of the section on scanning. -/
def withScan (s : Settings) (scan : Value) : Except Failure Settings := do
  let excludePaths ← textsOr s.excludePaths (scan.get? "exclude_paths")
  let maxFileSize ←
    (sizeOr s.maxFileSize ((scan.get? "max_file_size").bind Value.asInt?)).mapError .config
  return { s with excludePaths, maxFileSize }

/-- A section of the document. One that is no mapping has no settings. -/
def section? (key : String) (document : Value) : Value := (document.get? key).getD .null

/-- The settings of a document. An empty one has none. -/
def ofValue (root : Text) (document : Value) : Except Failure Settings := do
  let s : Settings := { root }
  if document.isEmpty then return s
  match document with
  | .map _ =>
    let s ← s.withOutput (section? "output" document)
    (s.withIndex (section? "index" document)).withScan (section? "scan" document)
  | _ => throw (.config .notMapping)

/-- The document of a configuration file, as a parser reads it. A blank one is empty. -/
def readDocument (parse : Yaml.Parser) (fileName content : Text) : Except Failure Value :=
  if Text.trim content = [] then .ok .null
  else
    match parse content with
    | .ok v => .ok v
    | .error .malformed => .error (.config (.malformed fileName))
    | .error f => .error (.configValue f)

/-- The configuration file that belongs to a path: the one in a directory, or the one beside a
file. -/
def filePath (tree : Entry) (path : Text) : Except Failure Text := do
  if ← FileError.lift (tree.pathIsDirectory path) then
    ResolveError.lift (tree.resolve (Path.append path settingsFileName))
  else if Path.name path = settingsFileName then ResolveError.lift (tree.resolve path)
  else ResolveError.lift (tree.resolve (Path.append (Path.parent path) settingsFileName))

/-- The settings that belong to a path from the root directory. Without a configuration file they
are the defaults. -/
def load (parse : Yaml.Parser) (tree : Entry) (path : Text) : Except Failure Settings := do
  let file ← filePath tree path
  let root ← ResolveError.lift (tree.resolve (Path.parent file))
  if ← FileError.lift (tree.pathExists file) then
    let bytes ← FileError.lift (tree.readFile file)
    match Utf8.decode bytes with
    | .error f => throw (.encoding f)
    | .ok content =>
      ofValue root (← readDocument parse (Path.name file) (Text.normalizeLineEnds content))
  else return { root }

end Settings

end CodeIndex
