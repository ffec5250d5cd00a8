import CodeIndex.CommandLine.Command
import CodeIndex.Service

/-!
# The program

What the program does with its command line: what it prints, how it ends, and whether it goes on to
run the service.
-/

namespace CodeIndex.Program

/-- How the program ends. -/
structure Exit where
  code : Nat := 0
  output : Text := []
  errors : Text := []
  /-- Where the service listens from now on. -/
  service : Option CommandLine.Address := none

/-- The help for the command line. -/
def help : Text :=
  ("usage: omen [-h] [-v] [-q] (generate | serve) ...\n\n" ++
    "Index a codebase into an AI-readable context document.\n").toList

/-- The path as it is shown: relative to the working directory if it lies below. -/
def shownPath (env : Environment) (path : Text) : Text :=
  (Path.below? env.workingDirectory path).getD path

/-- What is printed about a run. -/
def summary (env : Environment) (g : Generation) : Text :=
  "Indexed ".toList ++ Text.ofInt g.fileCount ++ " files, ".toList ++ Text.ofInt g.functionCount ++
    " functions, ".toList ++ Text.ofInt g.classCount ++ " classes\n".toList ++
    g.outputs.flatMap fun path => "Wrote ".toList ++ shownPath env path ++ ['\n']

/-- The end of a run that failed, if the user can mend what is wrong. -/
def failureMessage? : Failure → Option Text
  | .config c => some ("Invalid configuration: ".toList ++ c.message ++ ['\n'])
  | e => if e.isNotFound || e.isNotDirectory then some (e.message ++ ['\n']) else none

/-- The start of the service in the log. -/
def starting (address : CommandLine.Address) : LogRecord where
  level := .info
  logger := loggerName "service".toList
  message := "Starting omen service on ".toList ++ address.host ++ ':' :: Text.ofInt address.number

/-- What the program does with its command line. -/
def run (env : Environment) (arguments : List Text) (tree : Entry) : Outcome Exit :=
  match CommandLine.parse arguments with
  | .error .help => { result := .ok { output := help }, tree }
  | .error (.misuse m) =>
    { result := .ok { code := 2, errors := "error: ".toList ++ m.message ++ ['\n'] }, tree }
  | .ok invocation =>
    let log : LogSettings := { threshold := .threshold invocation.verbose invocation.quiet }
    match invocation.command with
    | .serve address =>
      { result := .ok { errors := log.console [starting address], service := some address }, tree }
    | .generate path overrides =>
      let outcome := Generate.run env overrides path tree
      let result := match outcome.result with
        | .ok g => .ok { output := summary env g, errors := log.console outcome.log }
        | .error e =>
          match failureMessage? e with
          | some message => .ok { code := 1, errors := log.console outcome.log ++ message }
          | none => .error e
      { result, tree := outcome.tree, log := outcome.log }

end CodeIndex.Program
