import CodeIndex.FileTree.Edit
import CodeIndex.Yaml.Document

/-!
# Failures

What may keep the program from its work, and the words for it.
-/

namespace CodeIndex

/-- What may be wrong with a configuration. -/
inductive ConfigError where
  /-- The file of the given name is no document. -/
  | malformed (fileName : Text)
  | notMapping
  | unknownFormat (format : Text)
  | sizeNotPositive
  deriving DecidableEq, Repr

/-- The error in words. -/
def ConfigError.message : ConfigError → Text
  | malformed fileName => "Failed to parse ".toList ++ fileName
  | notMapping => ".omen.yml must contain a mapping at the root".toList
  | unknownFormat format =>
    "Unknown output format '".toList ++ format ++ "' (expected one of: markdown, json, both)".toList
  | sizeNotPositive => "scan.max_file_size must be a positive integer".toList

/-- Why the program cannot do its work. -/
inductive Failure where
  | repositoryNotFound (path : Text)
  | repositoryNotDirectory (path : Text)
  | config (e : ConfigError)
  /-- A value of the configuration document is none of its kind. -/
  | configValue (f : Yaml.Fault)
  /-- An integer has too many digits to be written as a text. -/
  | tooLong
  /-- A file is not written in UTF-8. -/
  | encoding (f : Utf8.Fault)
  | file (e : FileError)
  | path (e : ResolveError)
  /-- A path starts in a home directory that is not known. -/
  | noHome

namespace Failure

/-- The failure in words. -/
def message : Failure → Text
  | repositoryNotFound p => "Repository path not found: ".toList ++ p
  | repositoryNotDirectory p => "Repository path is not a directory: ".toList ++ p
  | config e => e.message
  | configValue f => f.message
  | tooLong =>
    "Exceeds the limit (4300 digits) for integer string conversion; ".toList ++
      "use sys.set_int_max_str_digits() to increase the limit".toList
  | encoding f => f.message
  | file e => e.message
  | path (.nullByte p) => (FileError.mk .nullByte p).message
  | path (.loop p) => "Symlink loop from ".toList ++ Text.quoted p
  | noHome => "Could not determine home directory.".toList

/-- Something is missing. -/
def isNotFound : Failure → Bool
  | repositoryNotFound _ => true
  | file e => e.cause = .notFound
  | _ => false

/-- Something is no directory. -/
def isNotDirectory : Failure → Bool
  | repositoryNotDirectory _ => true
  | file e => e.cause = .notDirectory
  | _ => false

end Failure

/-- The failure of a question about a file tree. -/
def FileError.lift {α : Type} : Except FileError α → Except Failure α
  | .ok a => .ok a
  | .error e => .error (.file e)

/-- An edit that fails as the program does. -/
def FileEdit.lift {α : Type} (x : FileEdit α) : Edit Failure α := ExceptT.adapt Failure.file x

/-- The failure to resolve a path. -/
def ResolveError.lift {α : Type} : Except ResolveError α → Except Failure α
  | .ok a => .ok a
  | .error e => .error (.path e)

end CodeIndex
