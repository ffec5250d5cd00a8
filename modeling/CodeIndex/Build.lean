import CodeIndex.Detection
import CodeIndex.Project
import CodeIndex.Scan

/-!
# Building an index

The files of a scan are read one after the other, and what they show is added to the index. A file
that cannot be read or parsed is left out, and the log says why.

* `FileIndex.read` reads one file.
* `ProjectIndex.add` adds one file to an index.
* `ProjectIndex.build` makes the index of a repository.
-/

namespace CodeIndex

/-- What the index keeps of one file. -/
structure FileIndex where
  outline : Outline
  findings : Findings
  deriving DecidableEq, Repr

namespace FileIndex

/-- Why a file is left out. -/
inductive Error where
  | file (e : FileError)
  | encoding (f : Utf8.Fault)
  | unsupported (e : UnsupportedFile)

/-- The error in words. -/
def Error.message : Error → Text
  | file e => e.message
  | encoding f => f.message
  | unsupported e => e.message

/-- The text of a file, with line feeds for all line ends. -/
def content (tree : Entry) (path : Text) : Except Error Text :=
  match tree.readFile path with
  | .error e => .error (.file e)
  | .ok bytes =>
    match Utf8.decode bytes with
    | .error f => .error (.encoding f)
    | .ok t => .ok (Text.normalizeLineEnds t)

/-- What the log says about a file that was read: that some of it could not be parsed, and that its
tables are declared elsewhere. -/
def remarks (outline : Outline) (broken : Bool) (content : Text) : List LogRecord :=
  (if broken then
    [{ level := .debug, logger := loggerName "extractors.tree_sitter".toList,
       message := "Recovered from syntax errors while parsing ".toList ++ outline.path }]
  else []) ++
  (if Detection.usesSchemaFile outline content then
    [{ level := .debug, logger := loggerName "detectors.schemas".toList,
       message := "Prisma client used in ".toList ++ outline.relativePath ++
         "; schema.prisma is not parsed".toList }]
  else [])

/-- What the index keeps of a file with a given text, and what the log says about it. Imports are
always read, for they show which technologies are in use. -/
def ofContent (root path content : Text) : Except Error (FileIndex × List LogRecord) :=
  match parseFile Extractor.all { imports := true } root path content with
  | .error e => .error (.unsupported e)
  | .ok (outline, broken) =>
    .ok (⟨outline, Detection.findings outline content⟩, remarks outline broken content)

/-- What the index keeps of a file, and what the log says about it. -/
def read (tree : Entry) (root path : Text) : Except Error (FileIndex × List LogRecord) :=
  match content tree path with
  | .error e => .error e
  | .ok t => ofContent root path t

end FileIndex

namespace ProjectIndex

/-- A record of the log about the index. -/
def logRecord (level : LogLevel) (message : Text) : LogRecord where
  level
  logger := loggerName "generator".toList
  message

/-- The index with one more file. Only the records that the settings ask for are kept and
counted. -/
def add (shown : OutlineOptions) (p : ProjectIndex) (f : FileIndex) : ProjectIndex :=
  let outline := { f.outline with toDeclarations := f.outline.toDeclarations.restrict shown }
  let findings := (Findings.mk p.techStack p.endpoints p.tables).merge f.findings
  { p with
    fileCount := p.fileCount + 1
    functionCount := p.functionCount + outline.functions.length
    classCount := p.classCount + outline.classes.length
    files := p.files ++ [outline]
    techStack := findings.technologies
    endpoints := findings.endpoints
    tables := findings.tables }

/-- An index and the log of its making. -/
structure Progress where
  index : ProjectIndex
  log : List LogRecord := []

/-- The next file is read: it is added to the index, or the log says why not. -/
def Progress.next (shown : OutlineOptions) (p : Progress) (path : Text) :
    Except FileIndex.Error (FileIndex × List LogRecord) → Progress
  | .ok (f, remarks) => { index := p.index.add shown f, log := p.log ++ remarks }
  | .error e =>
    { p with
      log := p.log ++
        [logRecord .warning ("Failed to index ".toList ++ path ++ ": ".toList ++ e.message)] }

/-- The index after some files, each read by `read`. -/
def Progress.run (shown : OutlineOptions)
    (read : Text → Except FileIndex.Error (FileIndex × List LogRecord)) (p : Progress)
    (paths : List Text) : Progress :=
  paths.foldl (fun p path => p.next shown path (read path)) p

/-- The totals of an index in the log. -/
def totals (p : ProjectIndex) : LogRecord :=
  logRecord .info ("Indexed ".toList ++ Text.ofInt p.fileCount ++ " files (".toList ++
    Text.ofInt p.functionCount ++ " functions, ".toList ++ Text.ofInt p.classCount ++
    " classes, ".toList ++ Text.ofNat p.endpoints.length ++ " endpoints, ".toList ++
    Text.ofNat p.tables.length ++ " tables)".toList)

/-- What a run under some settings looks for. -/
def scanOptions (s : Settings) (extensions : List Text) : ScanOptions where
  excludePaths := s.scanExcludes
  maxFileSize := s.maxFileSize
  extensions := extensions

/-- The index of the repository at a path, and the log of its making. -/
def build (env : Environment) (s : Settings) (extensions : List Text) (tree : Entry) (root : Text) :
    Except Failure Progress := do
  let root ← env.realPath tree root
  let (paths, scanLog) ← Scan.files env (scanOptions s extensions) tree root
  let discovered := logRecord .debug
    ("Scanner discovered ".toList ++ Text.ofNat paths.length ++ " files".toList)
  let start : ProjectIndex := { projectName := Path.name root, generated := env.time }
  let p := Progress.run s.shown (FileIndex.read tree root)
    { index := start, log := scanLog ++ [discovered] } paths
  return { p with log := p.log ++ [p.index.totals] }

end ProjectIndex

end CodeIndex
