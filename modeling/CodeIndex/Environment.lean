import CodeIndex.Failure

/-!
# Environment

What the program knows of its surroundings: the directory in which it runs, the home directory, the
clock, and a parser of YAML documents.
-/

namespace CodeIndex

/-- The surroundings of the program. -/
structure Environment where
  /-- The path of the directory in which the program runs, from the root directory. -/
  workingDirectory : Text
  /-- The path of the home directory of the user. -/
  home : Option Text := none
  /-- The time, as reports show it. -/
  time : Text
  /-- What reads the configuration file. -/
  parse : Yaml.Parser := Yaml.load

namespace Environment

/-- The path with the home directory for a first component `~`. No home directory of another user is
known. -/
def expandHome (env : Environment) (path : Text) : Except Failure Text :=
  if Path.isAbsolute path then .ok path
  else
    match Path.components path, env.home with
    | ['~'] :: rest, some home => .ok (Path.append home (Path.ofComponents [] rest))
    | ('~' :: _) :: _, _ => .error .noHome
    | _, _ => .ok path

/-- The path from the root directory, without links and `..`. -/
def realPath (env : Environment) (tree : Entry) (path : Text) : Except Failure Text := do
  let path ← env.expandHome path
  ResolveError.lift (tree.resolve (Path.append env.workingDirectory path))

end Environment

end CodeIndex
