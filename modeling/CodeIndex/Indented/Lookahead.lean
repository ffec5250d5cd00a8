import CodeIndex.Outline
import CodeIndex.Indented.Header
import CodeIndex.Text.Bracket

/-!
# Constructs that run over several lines

Signatures, base lists, column calls and import lists may continue on the lines after the one that
starts them. Every reader here is given those lines and tells how many of them it has consumed.
-/

namespace CodeIndex.Indented

open Text

/-- Feeds lines until the parentheses balance or the lines end: the balancer reached, and the number
of lines fed, `fed` of them before. -/
def balance : Balancer → (fed : Nat) → List Text → Balancer × Nat
  | b, fed, [] => (b, fed)
  | b, fed, line :: lines => if b.isDone then (b, fed) else balance (b.feed line) (fed + 1) lines

/-- A call that may run over several lines. -/
structure Call where
  /-- Its trimmed lines, with single spaces between them. -/
  text : Text
  /-- The number of lines after the first that were read. -/
  consumed : Nat
  /-- The parentheses balance at the end. -/
  closed : Bool
  deriving DecidableEq, Repr

/-- The call that starts with the chunk `first` and goes on in the following lines until its
parentheses balance. -/
def collectCall (first : Text) (following : List Text) : Call :=
  let (b, n) := balance (({} : Balancer).feed first) 0 following
  ⟨b.text, n, b.isDone⟩

/-- The number of lines that a class header takes beyond its first: those of its base list, when
that is closed. -/
def baseLines (line : Text) (following : List Text) : Nat :=
  match cut? ['('] line with
  | none => 0
  | some (_, rest) =>
    let call := collectCall ('(' :: rest) following
    if call.closed then call.consumed else 0

/-- The parameters of a function and the type it returns. -/
structure Signature where
  params : List Text
  returnType : Option Text
  deriving DecidableEq, Repr

/-- The signature in a text that starts with the parenthesis before the parameters. -/
def Signature.ofText (t : Text) : Signature :=
  let block := captureCall t
  ⟨arguments (callArguments block), returnAnnotation? (t.drop block.length)⟩

/-- The signature that starts on a header line and goes on in the following lines, and how many of
them it takes. One that never closes is read from the header line alone. -/
def readSignature (call : Text) (following : List Text) : Signature × Nat :=
  let collected := collectCall call following
  if collected.closed then (Signature.ofText collected.text, collected.consumed)
  else (Signature.ofText call, 0)

/-- The type in a column call: the text before its first comma or inner parenthesis. -/
def columnType (call : Text) : Text :=
  let t := trim (call.tail.takeWhile fun c => !(c = ',' || c = '(' || c = ')'))
  if t = [] then "Unknown".toList else t

/-- The property that a line of a class body declares, if it declares one, and the number of
following lines it takes. -/
def readAttribute (line : Text) (following : List Text) : Option Text × Nat :=
  match columnAttribute? line with
  | some (name, call) =>
    let collected := collectCall call following
    (some (name ++ ": ".toList ++ columnType collected.text), collected.consumed)
  | none =>
    match typedAttribute? line with
    | some (name, type) =>
      if contains "def ".toList line then (none, 0) else (some (name ++ ": ".toList ++ type), 0)
    | none => (none, 0)

/-- The line without its comment. -/
def uncomment (line : Text) : Text := before ['#'] line

/-- The chunks of a parenthesised import list that goes on in the following lines, up to the first
with a closing parenthesis, after the chunks `done`, the last one first. -/
def importChunks : (done : List Text) → List Text → List Text
  | done, [] => done.reverse
  | done, line :: lines =>
    let chunk := uncomment line
    if ')' ∈ chunk then (chunk :: done).reverse else importChunks (chunk :: done) lines

/-- The imported names in a list: what stands between its commas, without aliases. -/
def importedNames (t : Text) : List Text :=
  let bare := t.map fun c => if c = '(' ∨ c = ')' then ' ' else c
  ((splitChar ',' bare).map fun name => trim (before " as ".toList (trim name))).filter (· ≠ [])

/-- The import that starts on line `line` with the given module and names, and the number of
following lines it takes. -/
def readImport (module? : Option Text) (names : Text) (line : Nat) (following : List Text) :
    ImportDecl × Nat :=
  let first := uncomment names
  let more :=
    if startsWith ['('] (trimLeft first) && ')' ∉ first then importChunks [] following else []
  let imports := importedNames (join [' '] (first :: more))
  let source := module?.getD (imports.headD [])
  (⟨source, imports, line⟩, more.length)

end CodeIndex.Indented
