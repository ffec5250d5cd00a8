import CodeIndex.Path
import CodeIndex.Indented.Outline
import CodeIndex.Script.Outline
import CodeIndex.Script.Syntax

/-!
# Extraction by kind of source

An extractor makes outlines of the files with certain suffixes (`Extractor.extract`).
`Extractor.forPath` finds the first one that supports a file, and `parseFile` asks it for the
outline.
-/

namespace CodeIndex

/-- The two extractors. -/
inductive Extractor where
  | script
  | python
  deriving DecidableEq, Repr

/-- No extractor supports the file. -/
structure UnsupportedFile where
  path : Text
  deriving DecidableEq, Repr

/-- The error in words: the suffix of the file, and its path. -/
def UnsupportedFile.message (e : UnsupportedFile) : Text :=
  let suffix := match Path.suffix e.path with
    | [] => "<none>".toList
    | s => s
  "Unsupported file type: ".toList ++ suffix ++ " (".toList ++ e.path ++ ")".toList

namespace Extractor

/-- The suffixes that an extractor supports. -/
def extensions : Extractor → List Text
  | script => [".ts", ".tsx", ".js", ".jsx"].map String.toList
  | python => [".py".toList]

/-- The extractor supports the file. -/
def supports (e : Extractor) (path : Text) : Bool := e.extensions.contains (Path.lowerSuffix path)

/-- The extractors in the order in which they are asked. -/
def all : List Extractor := [script, python]

/-- The first extractor that supports a file. -/
def forPath (extractors : List Extractor) (path : Text) : Except UnsupportedFile Extractor :=
  match extractors.find? (·.supports path) with
  | some e => .ok e
  | none => .error ⟨path⟩

/-- A script language: its name, and the dialect in which it is read. -/
def scriptLanguage? (suffix : Text) : Option (Text × Script.Dialect) :=
  if suffix = ".ts".toList then some ("typescript".toList, ⟨true, false⟩)
  else if suffix = ".tsx".toList then some ("typescript".toList, ⟨true, true⟩)
  else if suffix = ".js".toList || suffix = ".jsx".toList then
    some ("javascript".toList, ⟨false, true⟩)
  else none

/-- The outline that an extractor makes of a file, and whether some of the file could not be read. A
script is told by what follows the last dot of its whole path. -/
def extract (e : Extractor) (options : OutlineOptions) (root path content : Text) :
    Except UnsupportedFile (Outline × Bool) :=
  let relativePath := Path.relative root path
  match e with
  | python =>
    if python.supports path then
      .ok ({ Indented.declarations options content with
        path, relativePath, language := "python".toList }, false)
    else .error ⟨path⟩
  | script =>
    match scriptLanguage? (Text.lower (Path.extension path)) with
    | none => .error ⟨path⟩
    | some (language, dialect) =>
      let tree := Script.parse dialect content
      .ok ({ Script.declarations options (Utf8.encode content).toArray tree.root with
        path, relativePath, language }, tree.broken)

/-- All suffixes that some extractors support, in order. -/
def allExtensions (extractors : List Extractor) : List Text :=
  Text.sortedSet (extractors.flatMap extensions)

end Extractor

/-- The outline of a file by the first of some extractors that supports it, and whether some of the
file could not be read. -/
def parseFile (extractors : List Extractor) (options : OutlineOptions) (root path content : Text) :
    Except UnsupportedFile (Outline × Bool) := do
  let e ← Extractor.forPath extractors path
  e.extract options root path content

end CodeIndex
