import CodeIndex.Build
import CodeIndex.Report.Json
import CodeIndex.Report.Markdown

/-!
# Generating reports

A run loads the settings of a repository, builds its index and writes the reports. A directory of
reports beside the sources gets an ignore file of its own, unless it has one.
-/

namespace CodeIndex

/-- The totals of a run and the reports that it wrote. -/
structure Generation where
  fileCount : Int
  functionCount : Int
  classCount : Int
  outputs : List Text
  deriving DecidableEq, Repr

/-- What remains of a run: its result, the tree as it left it, and its log. -/
structure Outcome (α : Type) where
  result : Except Failure α
  tree : Entry
  log : List LogRecord := []

namespace Generate

/-- What the ignore file in a directory of reports says: everything but itself. -/
def ignoreFileContent : Text := "*\n!.gitignore\n".toList

/-- The reports that some settings ask for: their paths, and their texts if they have one. -/
def reports (s : Settings) (p : ProjectIndex) : List (Text × Except Failure Text) :=
  (if s.format.hasMarkdown then
    [(Path.append s.outputDirectory "AI_CONTEXT.md".toList, p.markdownReport)] else []) ++
  (if s.format.hasJson then
    [(Path.append s.outputDirectory "AI_CONTEXT.json".toList, p.renderJson)] else [])

/-- A text in a file. -/
def writeText (path text : Text) : FileEdit Unit := Edit.writeFile path (Utf8.encode text)

/-- A report in its file, if it has a text. -/
def writeReport (path : Text) : (text : Except Failure Text) → Edit Failure Unit
  | .ok text => (writeText path text).lift
  | .error e => throw e

/-- An ignore file in a directory, unless there is one. -/
def protectDirectory (directory : Text) : FileEdit Unit := do
  let path := Path.append directory ".gitignore".toList
  if !(← Edit.ask (·.pathExists path)) then writeText path ignoreFileContent

/-- The reports of an index, in their directory. -/
def writeReports (s : Settings) (p : ProjectIndex) : Edit Failure (List Text) := do
  (Edit.makeDirectories s.outputDirectory).lift
  if s.outputDirectory ≠ s.root then (protectDirectory s.outputDirectory).lift
  (reports s p).forM fun (path, text) => writeReport path text
  return (reports s p).map (·.1)

/-- The settings of a run on the repository at a path. -/
def settings (env : Environment) (overrides : Overrides) (tree : Entry) (root : Text) :
    Except Failure Settings := do
  let path ← env.realPath tree root
  if !(← FileError.lift (tree.pathExists path)) then throw (.repositoryNotFound root)
  match (← Settings.load env.parse tree path).override overrides with
  | .ok s => return s
  | .error e => throw (.config e)

/-- The settings of a run and the index that it builds. -/
def prepare (env : Environment) (overrides : Overrides) (tree : Entry) (root : Text) :
    Except Failure (Settings × ProjectIndex.Progress) := do
  let s ← settings env overrides tree root
  let path ← env.realPath tree root
  return (s, ← ProjectIndex.build env s (Extractor.allExtensions Extractor.all) tree path)

/-- A report that was written, in the log. -/
def wrote (path : Text) : LogRecord := ProjectIndex.logRecord .info ("Wrote ".toList ++ path)

/-- A run on the repository at a path. -/
def run (env : Environment) (overrides : Overrides) (root : Text) (tree : Entry) :
    Outcome Generation :=
  match prepare env overrides tree root with
  | .error e => { result := .error e, tree }
  | .ok (s, p) =>
    match (writeReports s p.index).run tree with
    | (.error e, tree) => { result := .error e, tree, log := p.log }
    | (.ok outputs, tree) =>
      { result := .ok ⟨p.index.fileCount, p.index.functionCount, p.index.classCount, outputs⟩
        tree
        log := p.log ++ outputs.map wrote }

end Generate

end CodeIndex
