import CodeIndex.Config.Settings
import CodeIndex.Environment
import CodeIndex.Extract
import CodeIndex.Ignore.Rule
import CodeIndex.Log

/-!
# Scan

A scan lists the source files below the root of a repository. It leaves out what ignore rules name,
what lies below certain directories, files with other suffixes and files that are too large. The
files of a directory come in the order of their names and before those of its subdirectories, which
come in the order of their names too.

* `Entry.filesBelow` walks a directory with a choice of what to keep.
* `Scan.files` are the files of a scan, and what the log says about files that were left out.
-/

namespace CodeIndex

namespace Entry

/-- What a walk keeps. Paths are relative to the directory where the walk starts. -/
structure Choice where
  keepsDirectory : (path name : Text) → Bool
  keepsFile : (path : Text) → Bool
  /-- The link at a path leads to a directory. -/
  linksDirectory : (path : Text) → Bool

/-- The path of an entry of a directory. -/
def pathOf (directory name : Text) : Text :=
  if directory = [] then name else directory ++ '/' :: name

/-- The names of the files in a directory, with links that lead to no directory. -/
def fileNames (choice : Choice) (directory : Text) (entries : List (Text × Entry)) : List Text :=
  entries.filterMap fun (name, e) =>
    match e with
    | file _ => some name
    | .directory _ => none
    | link _ => if choice.linksDirectory (pathOf directory name) then none else some name

/-- The paths of the files in a directory that a walk keeps, in the order of their names. -/
def filesIn (choice : Choice) (directory : Text) (entries : List (Text × Entry)) : List Text :=
  ((Text.sort (fileNames choice directory entries)).map (pathOf directory)).filter choice.keepsFile

/-- The order of names, on pairs that start with one. -/
def nameLe {α : Type} (a b : Text × α) : Bool := Text.le a.1 b.1

mutual

/-- The paths of the files below a directory that a walk keeps. -/
def filesBelow (choice : Choice) (directory : Text) : Entry → List Text
  | .directory entries =>
    filesIn choice directory entries ++
      ((filesBelowEach choice directory entries).mergeSort nameLe).flatMap (·.2)
  | _ => []

/-- The subdirectories that a walk keeps, each with the paths of the files below it. -/
def filesBelowEach (choice : Choice) (directory : Text) :
    List (Text × Entry) → List (Text × List Text)
  | [] => []
  | (name, e) :: entries =>
    if e.isDirectory && choice.keepsDirectory (pathOf directory name) name then
      (name, filesBelow choice (pathOf directory name) e) :: filesBelowEach choice directory entries
    else filesBelowEach choice directory entries

end

end Entry

/-- What a scan looks for. -/
structure ScanOptions where
  excludePaths : List Text := defaultExcludes
  maxFileSize : Int := defaultMaxFileSize
  extensions : List Text := Extractor.allExtensions Extractor.all
  deriving DecidableEq, Repr

namespace Scan

/-- The directories that are never entered. -/
def excludedDirectories : List Text :=
  [".git", ".hg", ".svn", ".venv", "venv", "node_modules", "__pycache__", ".pytest_cache",
    ".mypy_cache", ".idea", ".next"].map String.toList ++ [defaultOutputPath]

/-- What a scan under some rules keeps. -/
def choice (rules : List IgnoreRule) (linksDirectory : Text → Bool) : Entry.Choice where
  keepsDirectory path name :=
    !excludedDirectories.contains name && !IgnoreRule.ignores rules path true
  keepsFile path := !IgnoreRule.ignores rules path false
  linksDirectory := linksDirectory

/-- A link leads to a directory. -/
def linksDirectory (tree : Entry) (root path : Text) : Bool :=
  match tree.stat (Path.append root path) with
  | .ok e => e.isDirectory
  | .error _ => false

/-- The rules of the ignore file in the root of the repository. -/
def ignoreFileRules (tree : Entry) (root : Text) : Except FileError (List IgnoreRule) := do
  let path := Path.append root ".gitignore".toList
  if ← tree.pathExists path then
    return IgnoreRule.ofFile (Utf8.decodeLenient (← tree.readFile path))
  else return []

/-- A record of the log about the scan. -/
def logRecord (level : LogLevel) (message : Text) : LogRecord where
  level
  logger := loggerName "repo_scanner".toList
  message

/-- What a scan says about a file with the right suffix. -/
inductive Verdict where
  | kept
  | tooLarge (size : Nat)
  | unreadable (e : FileError)
  deriving DecidableEq, Repr

/-- The verdict on a file by its size. -/
def verdict (tree : Entry) (maxFileSize : Int) (path : Text) : Verdict :=
  match tree.stat path with
  | .error e => .unreadable e
  | .ok e => if maxFileSize < e.size then .tooLarge e.size else .kept

/-- What the log says about a verdict. -/
def Verdict.log (path : Text) : Verdict → List LogRecord
  | kept => []
  | tooLarge size =>
    [logRecord .debug ("Skipping ".toList ++ path ++ " (".toList ++ Text.ofNat size ++
      " bytes exceeds limit)".toList)]
  | unreadable e => [logRecord .warning ("Cannot stat ".toList ++ path ++ ": ".toList ++ e.message)]

/-- The files with the right suffixes that no rule leaves out, below a root without links. -/
def candidates (rules : List IgnoreRule) (extensions : List Text) (tree : Entry) (root : Text)
    (repository : Entry) : List Text :=
  (((repository.filesBelow (choice rules (linksDirectory tree root)) []).filter
    fun path => extensions.contains (Path.lowerSuffix path)).map (Path.append root))

/-- The files that a scan finds, and what the log says about those that it leaves out. -/
def files (env : Environment) (options : ScanOptions) (tree : Entry) (root : Text) :
    Except Failure (List Text × List LogRecord) := do
  let path ← env.realPath tree root
  match ← FileError.lift (tree.stat? path) with
  | none => throw (.repositoryNotFound root)
  | some repository =>
    if !repository.isDirectory then throw (.repositoryNotDirectory root)
    let rules ← FileError.lift (ignoreFileRules tree path)
    let found := candidates (rules ++ IgnoreRule.ofPatterns options.excludePaths) options.extensions
      tree path repository
    let judged := found.map fun file => (file, verdict tree options.maxFileSize file)
    return ((judged.filter (·.2 = .kept)).map (·.1), judged.flatMap fun (file, v) => v.log file)

end Scan

end CodeIndex
