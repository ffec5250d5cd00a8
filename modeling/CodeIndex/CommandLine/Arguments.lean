import CodeIndex.Text.Blank
import CodeIndex.Text.Quoted

/-!
# Arguments of a command

An argument is a word, an option with one of its names, or `--`, after which all arguments are
words. A long name may be cut short as long as it fits one option, `=` joins a value to it, and
short names may be written in a cluster.

* `interpret` says what an argument is, by its look alone.
* `consume` gives the words to options and operands, from the first argument to the last.
-/

namespace CodeIndex.CommandLine

/-- An option that a command knows. -/
structure OptionSpec (κ : Type) where
  key : κ
  names : List Text
  takesValue : Bool := false
  /-- What is wrong with a value. -/
  complaint? : Text → Option Text := fun _ => none
  /-- The option asks for help, and nothing else is done. -/
  asksHelp : Bool := false

/-- A use of the command line that makes no sense. -/
inductive Misuse where
  | required (operand : Text)
  | ambiguous (argument : Text) (names : List Text)
  | unrecognized (arguments : List Text)
  /-- Something is wrong with an option or an operand. -/
  | invalid (name problem : Text)
  deriving DecidableEq, Repr

/-- The misuse in words. -/
def Misuse.message : Misuse → Text
  | required operand => "the following arguments are required: ".toList ++ operand
  | ambiguous argument names =>
    "ambiguous option: ".toList ++ argument ++ " could match ".toList ++ Text.join ", ".toList names
  | unrecognized arguments => "unrecognized arguments: ".toList ++ Text.join [' '] arguments
  | invalid name problem => "argument ".toList ++ name ++ ": ".toList ++ problem

/-- Why a command line is not carried out. -/
inductive Stop where
  | help
  | misuse (m : Misuse)
  deriving DecidableEq, Repr

/-- What an argument is. -/
inductive Reading (κ : Type) where
  | word
  | separator
  /-- An option that the command does not know. -/
  | unknown
  /-- An option, with the value that stands in the same argument; `attached` says that the value
  follows a short name directly. -/
  | option (o : OptionSpec κ) (value : Option Text) (attached : Bool)

variable {κ : Type}

/-- The names of options, in order. -/
def namesOf (options : List (OptionSpec κ)) : List (Text × OptionSpec κ) :=
  options.flatMap fun o => o.names.map fun n => (n, o)

/-- The option with a name. -/
def named? (options : List (OptionSpec κ)) (name : Text) : Option (OptionSpec κ) :=
  ((namesOf options).find? (·.1 = name)).map (·.2)

/-- The text is a negative number. -/
def isNegativeNumber (t : Text) : Bool :=
  let isDigit (c : Char) : Bool := (Text.digitValue? c).isSome
  let digits (t : Text) : Bool := !t.isEmpty && t.all isDigit
  match if Text.endsWithChar '\n' t then t.dropLast else t with
  | '-' :: t =>
    digits t ||
      match t.dropWhile isDigit with
      | '.' :: t => digits t
      | _ => false
  | _ => false

/-- The options that an argument may mean when it is no full name: those with a longer name, or the
one whose short name comes first in it. -/
def candidates (options : List (OptionSpec κ)) (argument : Text) : List (Text × Reading κ) :=
  if Text.startsWith ['-', '-'] argument then
    let (start, value) := match Text.cut? ['='] argument with
      | some (start, value) => (start, some value)
      | none => (argument, none)
    (namesOf options).filterMap fun (n, o) =>
      if Text.startsWith start n then some (n, .option o value false) else none
  else
    (namesOf options).filterMap fun (n, o) =>
      if n = argument.take 2 then some (n, .option o (some (argument.drop 2)) true)
      else if Text.startsWith argument n then some (n, .option o none false)
      else none

/-- What an argument before `--` is. -/
def interpret (options : List (OptionSpec κ)) (argument : Text) : Except Misuse (Reading κ) :=
  if !Text.startsWith ['-'] argument then .ok .word
  else if let some o := named? options argument then .ok (.option o none false)
  else if argument.length = 1 then .ok .word
  else
    let joined := (Text.cut? ['='] argument).bind fun (name, value) =>
      (named? options name).map fun o => Reading.option o (some value) false
    match joined, candidates options argument with
    | some r, _ => .ok r
    | none, [(_, r)] => .ok r
    | none, [] =>
      if isNegativeNumber argument || argument.any (· = ' ') then .ok .word else .ok .unknown
    | none, several => .error (.ambiguous argument (several.map (·.1)))

/-- What the arguments of a command are. -/
def readings (options : List (OptionSpec κ)) : List Text → Except Misuse (List (Text × Reading κ))
  | [] => .ok []
  | argument :: rest =>
    if argument = ['-', '-'] then .ok ((argument, .separator) :: rest.map fun a => (a, .word))
    else do
      let r ← interpret options argument
      return (argument, r) :: (← readings options rest)

/-- The name under which a problem with an option is reported. -/
def OptionSpec.title (o : OptionSpec κ) : Text := Text.join ['/'] o.names

/-- A problem with an option. -/
def OptionSpec.invalid {α : Type} (o : OptionSpec κ) (problem : Text) : Except Stop α :=
  .error (.misuse (.invalid o.title problem))

/-- The problem that an option takes no value. -/
def OptionSpec.ignored {α : Type} (o : OptionSpec κ) (value : Text) : Except Stop α :=
  o.invalid ("ignored explicit argument ".toList ++ Text.quoted value)

/-- The options in one argument that starts with an option and holds a value for it: flags, and in
the end an option with its value, an option that still needs one, or the rest of the argument that
is no option. Only a value that is attached to a short name can hold more short names. -/
def cluster (options : List (OptionSpec κ)) : (o : OptionSpec κ) → (attached : Bool) →
    (value : Text) → Except Stop (List (OptionSpec κ × Option Text) × List Text)
  | o, _, [] => if o.takesValue then .ok ([(o, some [])], []) else o.ignored []
  | o, attached, c :: rest =>
    if o.takesValue then .ok ([(o, some (c :: rest))], [])
    else if !attached || c = '-' then o.ignored (c :: rest)
    else
      match named? options ['-', c] with
      | none => .ok ([(o, none)], ['-' :: c :: rest])
      | some next =>
        match rest with
        | [] => .ok ([(o, none), (next, none)], [])
        | '=' :: given => do
          let (more, extra) ← cluster options next false given
          return ((o, none) :: more, extra)
        | d :: given => do
          let (more, extra) ← cluster options next true (d :: given)
          return ((o, none) :: more, extra)

/-- Which operands a command has. -/
inductive Operands where
  | none
  | atMostOne
  /-- A command of its own, with all arguments that follow it. -/
  | command
  deriving DecidableEq, Repr

/-- How far the only operand of a command has been read. -/
inductive OperandState where
  /-- It may come. -/
  | open
  /-- It may come, after `--`. -/
  | separated
  /-- It has just come. -/
  | justRead
  /-- It can come no more. -/
  | closed
  deriving DecidableEq, Repr

/-- What was read of the arguments of a command. -/
structure Given (κ : Type) where
  options : List (κ × Text) := []
  operands : List Text := []
  extras : List Text := []

/-- One more option. -/
def Given.take (g : Given κ) (o : OptionSpec κ) (value : Text) : Except Stop (Given κ) :=
  match o.complaint? value with
  | some problem => o.invalid problem
  | none =>
    if o.asksHelp then .error .help else .ok { g with options := g.options ++ [(o.key, value)] }

/-- The options of one argument, of which the last may still need a value. -/
def Given.takeAll (g : Given κ) :
    List (OptionSpec κ × Option Text) → Except Stop (Given κ × Option (OptionSpec κ))
  | [] => .ok (g, none)
  | (o, some value) :: rest => do takeAll (← g.take o value) rest
  | (o, none) :: rest =>
    if o.takesValue then .ok (g, some o) else do takeAll (← g.take o []) rest

/-- Reads the arguments of a command from the first to the last. `waiting` is an option that needs a
value. -/
def consume (options : List (OptionSpec κ)) (kind : Operands) :
    (waiting : Option (OptionSpec κ)) → OperandState → Given κ → List (Text × Reading κ) →
    Except Stop (Given κ)
  | none, _, g, [] => .ok g
  | some o, _, _, [] => o.invalid "expected one argument".toList
  | some o, s, g, (argument, reading) :: rest =>
    match reading with
    | .word => do consume options kind none s (← g.take o argument) rest
    | _ => o.invalid "expected one argument".toList
  | none, s, g, (argument, reading) :: rest =>
    let s' := if s = .justRead then .closed else s
    match reading with
    | .unknown => consume options kind none s' { g with extras := g.extras ++ [argument] } rest
    | .option o value attached => do
      let (found, extra) ← match value with
        | none => pure ([(o, none)], [])
        | some v => cluster options o attached v
      let (g, waiting) ← g.takeAll found
      consume options kind waiting s' { g with extras := g.extras ++ extra } rest
    | .separator =>
      if kind = .command && rest ≠ [] then .ok { g with operands := argument :: rest.map (·.1) }
      else if kind = .atMostOne && s = .open then consume options kind none .separated g rest
      else if kind = .atMostOne && s = .justRead then consume options kind none .closed g rest
      else consume options kind none s' { g with extras := g.extras ++ [argument] } rest
    | .word =>
      if kind = .command then .ok { g with operands := argument :: rest.map (·.1) }
      else if kind = .atMostOne && (s = .open || s = .separated) then
        consume options kind none (if s = .open then .justRead else .closed)
          { g with operands := [argument] } rest
      else consume options kind none s' { g with extras := g.extras ++ [argument] } rest

/-- Reads the arguments of a command. -/
def read (options : List (OptionSpec κ)) (kind : Operands) (arguments : List Text) :
    Except Stop (Given κ) :=
  match readings options arguments with
  | .error m => .error (.misuse m)
  | .ok rs => consume options kind none .open {} rs

end CodeIndex.CommandLine
