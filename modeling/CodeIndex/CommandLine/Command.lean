import CodeIndex.CommandLine.Arguments
import CodeIndex.Config.Settings

/-!
# Commands

The command line asks to index a repository or to run the service.
-/

namespace CodeIndex.CommandLine

/-- The options of all commands. -/
inductive OptionKey where
  | help
  | verbose
  | quiet
  | format
  | output
  | includeImports
  | host
  | hostNumber
  deriving DecidableEq, Repr

/-- Where the service listens. -/
structure Address where
  host : Text := "127.0.0.1".toList
  number : Int := 8000
  deriving DecidableEq, Repr

/-- What the command line asks for. -/
inductive Command where
  | generate (path : Text) (overrides : Overrides)
  | serve (address : Address)
  deriving DecidableEq, Repr

/-- A command line. -/
structure Invocation where
  verbose : Bool
  quiet : Bool
  command : Command
  deriving DecidableEq, Repr

/-- A problem with a value that is none of several. -/
def invalidChoice (choices : List Text) (value : Text) : Text :=
  "invalid choice: ".toList ++ Text.quoted value ++ " (choose from ".toList ++
    Text.join ", ".toList (choices.map Text.quoted) ++ ")".toList

/-- The options that every command knows. -/
def commonOptions : List (OptionSpec OptionKey) :=
  [{ key := .help, names := ["-h".toList, "--help".toList], asksHelp := true },
   { key := .verbose, names := ["-v".toList, "--verbose".toList] },
   { key := .quiet, names := ["-q".toList, "--quiet".toList] }]

/-- The names of the formats. -/
def formatNames : List Text := OutputFormat.all.map OutputFormat.name

/-- The options of the command that indexes a repository. -/
def generateOptions : List (OptionSpec OptionKey) :=
  commonOptions ++
  [{ key := .format, names := ["--format".toList], takesValue := true,
     complaint? := fun v =>
      if formatNames.contains v then none else some (invalidChoice formatNames v) },
   { key := .output, names := ["--output".toList], takesValue := true },
   { key := .includeImports, names := ["--include-imports".toList] }]

/-- The options of the command that runs the service. -/
def serveOptions : List (OptionSpec OptionKey) :=
  commonOptions ++
  [{ key := .host, names := ["--host".toList], takesValue := true },
   { key := .hostNumber, names := ["--port".toList], takesValue := true,
     complaint? := fun v =>
      if (Value.parseInt? v).isSome then none
      else some ("invalid int value: ".toList ++ Text.quoted v) }]

/-- The option was given. -/
def Given.has (g : Given OptionKey) (key : OptionKey) : Bool := g.options.any (·.1 = key)

/-- The last value of an option. -/
def Given.value? (g : Given OptionKey) (key : OptionKey) : Option Text :=
  (g.options.reverse.find? (·.1 = key)).map (·.2)

/-- The commands by name: their options, their operands, and what they ask for. -/
def commands : List (Text × List (OptionSpec OptionKey) × Operands × (Given OptionKey → Command)) :=
  [("generate".toList, generateOptions, .atMostOne, fun g =>
      .generate (g.operands.headD ['.'])
        { outputPath := g.value? .output
          format := g.value? .format
          includeImports := if g.has .includeImports then some true else none }),
   ("serve".toList, serveOptions, .none, fun g =>
      .serve
        { host := (g.value? .host).getD ({} : Address).host
          number := ((g.value? .hostNumber).bind Value.parseInt?).getD ({} : Address).number })]

/-- What a command line asks for. -/
def parse (arguments : List Text) : Except Stop Invocation := do
  let g ← read commonOptions .command arguments
  match g.operands with
  | [] => throw (.misuse (.required "command".toList))
  | name :: rest =>
    match commands.find? (·.1 = name) with
    | none => throw (.misuse (.invalid "command".toList (invalidChoice (commands.map (·.1)) name)))
    | some (_, options, operands, command) =>
      let g' ← read options operands rest
      match g.extras ++ g'.extras with
      | [] =>
        return {
          verbose := g.has .verbose || g'.has .verbose
          quiet := g.has .quiet || g'.has .quiet
          command := command g' }
      | extras => throw (.misuse (.unrecognized extras))

end CodeIndex.CommandLine
