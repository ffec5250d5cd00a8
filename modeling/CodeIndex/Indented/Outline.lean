import CodeIndex.Indented.Lookahead
import CodeIndex.Text.Lines
import CodeIndex.Text.TripleQuote

/-!
# The outline of an indented source

No syntax tree is built. `step` reads one line, and the lines after it where a construct goes on,
and changes the state of the scan; `scanLines` repeats it until no line is left. A class opens at
the left margin. The first line of code indented deeper fixes the indentation of its body, and only
lines with exactly this indentation are its members. A string right after a header documents the
declaration; any other string waits for the next declaration.
-/

namespace CodeIndex.Indented

open Text

/-- The class whose body is being read: its header, and its members so far, the last one first. -/
structure OpenClass where
  header : ClassDecl
  indent : Nat
  bodyIndent : Option Nat := none
  methods : List FunctionDecl := []
  properties : List Text := []
  deriving DecidableEq, Repr

/-- The class with the members read so far. -/
def OpenClass.close (c : OpenClass) : ClassDecl :=
  { c.header with methods := c.methods.reverse, properties := c.properties.reverse }

/-- The kind of the declaration that the last line of code made. -/
inductive Latest where
  /-- The last of the functions. -/
  | function
  /-- The open class itself. -/
  | openClass
  /-- The last method of the open class. -/
  | method
  deriving DecidableEq, Repr

/-- The state of the scan between two lines. The lists have the last record first. -/
structure ScanState where
  strings : StringTracker := {}
  current : Option OpenClass := none
  pending : Option Text := none
  latest : Option Latest := none
  functions : List FunctionDecl := []
  classes : List ClassDecl := []
  imports : List ImportDecl := []
  deriving DecidableEq, Repr

/-- The first element changed, if there is one. -/
def mapHead {α : Type} (f : α → α) : List α → List α
  | [] => []
  | a :: as => f a :: as

namespace ScanState

/-- The open class, if there is one, becomes one of the finished classes. -/
def closeClass (s : ScanState) : ScanState :=
  match s.current with
  | none => s
  | some c => { s with current := none, classes := c.close :: s.classes }

/-- The open class changed, if there is one. -/
def mapCurrent (f : OpenClass → OpenClass) (s : ScanState) : ScanState :=
  { s with current := s.current.map f }

/-- A finished string documents the latest declaration, or waits for the next one. -/
def attach (s : ScanState) (description : Text) : ScanState :=
  let document (f : FunctionDecl) : FunctionDecl := { f with description := some description }
  match s.latest with
  | none => { s with pending := some description }
  | some .function => { s with latest := none, functions := mapHead document s.functions }
  | some .openClass =>
    { s.mapCurrent fun c => { c with header := { c.header with description := some description } }
      with latest := none }
  | some .method =>
    { s.mapCurrent fun c => { c with methods := mapHead document c.methods } with latest := none }

/-- The string completed last is taken, and used if it is not empty. -/
def useCompleted (use : ScanState → Text → ScanState) (s : ScanState) : ScanState :=
  let (completed, strings) := s.strings.takeCompleted
  let s := { s with strings }
  match completed with
  | some (c :: t) => use s (c :: t)
  | _ => s

/-- The string that follows a header on the same line. It is used only if it is complete and there
is a declaration to document. -/
def feedTrailing (s : ScanState) (trailing : Text) : ScanState :=
  if trailing = [] then s
  else
    let (belongs, strings) := s.strings.feed trailing
    let s := { s with strings }
    if belongs then
      s.useCompleted fun s t => if s.latest.isSome then s.attach t else s
    else s

/-- The first line of code that is indented deeper than the header of the open class fixes the
indentation of its body. -/
def fixBodyIndent (s : ScanState) (line : Text) : ScanState :=
  if !s.strings.isOpen && trimLeft line ≠ [] && !startsWith ['#'] (trimLeft line) then
    s.mapCurrent fun c =>
      if c.bodyIndent = none ∧ indentation line > c.indent then
        { c with bodyIndent := some (indentation line) }
      else c
  else s

/-- The waiting description is given to the declaration being made. -/
def takePending (s : ScanState) : Option Text × ScanState := (s.pending, { s with pending := none })

end ScanState

/-- Parameters that every method has and no outline lists. -/
def isImplicitParam (p : Text) : Bool := p = "self".toList || p = "cls".toList

/-- The function that a header at line `line` declares. -/
def DefHeader.declare (h : DefHeader) (sig : Signature) (line : Nat) (isExported : Bool)
    (description : Option Text) : FunctionDecl :=
  { name := h.name, params := sig.params, line, returnType := sig.returnType, isAsync := h.isAsync,
    isExported, description }

/-- A class header at line `lineNo`. -/
def stepClass (s : ScanState) (lineNo : Nat) (name line trailing : Text) (indent : Nat)
    (following : List Text) : ScanState × Nat :=
  let (description, s) := s.closeClass.takePending
  let header : ClassDecl := { name, line := lineNo, isExported := true, description }
  let s := { s with current := some { header, indent }, latest := some .openClass }
  (s.feedTrailing trailing, baseLines line following)

/-- A line inside the body of the open class `c`. -/
def stepMember (s : ScanState) (c : OpenClass) (lineNo : Nat) (line trailing : Text) (indent : Nat)
    (following : List Text) : ScanState × Nat :=
  if some indent = c.bodyIndent then
    match defHeader? line with
    | none =>
      let (property?, n) := readAttribute line following
      let s := s.mapCurrent fun c => { c with properties := property?.toList ++ c.properties }
      (s.feedTrailing trailing, n)
    | some h =>
      let (sig, n) := readSignature h.call following
      let (description, s) := s.takePending
      let sig := { sig with params := sig.params.filter (!isImplicitParam ·) }
      let method := h.declare sig lineNo false description
      let s := s.mapCurrent fun c => { c with methods := method :: c.methods }
      ({ s with latest := some .method }.feedTrailing trailing, n)
  else (s.feedTrailing trailing, 0)

/-- A line outside of classes that is no class header: a function at the left margin, or a line that
ends the open class if it stands at the left margin and may be an import. -/
def stepOuter (options : OutlineOptions) (s : ScanState) (lineNo : Nat) (line trailing : Text)
    (indent : Nat) (following : List Text) : ScanState × Nat :=
  match indent, defHeader? line with
  | 0, some h =>
    let (sig, n) := readSignature h.call following
    let (description, s) := s.takePending
    let s := s.closeClass
    let s := { s with functions := h.declare sig lineNo true description :: s.functions }
    ({ s with latest := some .function }.feedTrailing trailing, n)
  | 0, none =>
    let s := (s.feedTrailing trailing).closeClass
    match if options.imports then importLine? line else none with
    | none => (s, 0)
    | some (module?, names) =>
      let (decl, n) := readImport module? names lineNo following
      ({ s with imports := decl :: s.imports }, n)
  | _ + 1, _ => (s.feedTrailing trailing, 0)

/-- A line of code outside of strings. -/
def stepCode (options : OutlineOptions) (s : ScanState) (lineNo : Nat) (line trailing : Text)
    (indent : Nat) (following : List Text) : ScanState × Nat :=
  let s := { s with latest := none }
  match classHeader? line with
  | some name => stepClass s lineNo name line trailing indent following
  | none =>
    match s.current with
    | some c =>
      if indent > c.indent then stepMember s c lineNo line trailing indent following
      else stepOuter options s lineNo line trailing indent following
    | none => stepOuter options s lineNo line trailing indent following

/-- Reads one line, with number `lineNo` and the lines that follow it: the new state, and how many
of the following lines were read with it. -/
def step (options : OutlineOptions) (s : ScanState) (lineNo : Nat) (line : Text)
    (following : List Text) : ScanState × Nat :=
  let s := s.fixBodyIndent line
  let isComment := startsWith ['#'] (trimLeft line)
  if isComment && !s.strings.isOpen then (s, 0)
  else
    let (code, trailing) := if s.strings.isOpen then (line, []) else splitHeaderString line
    let (belongs, strings) := s.strings.feed code
    let s := { s with strings }
    if belongs then (s.useCompleted ScanState.attach, 0)
    else if trimLeft line = [] then (s, 0)
    else stepCode options s lineNo code trailing (indentation line) following

/-- Reads all lines, the first of which has number `lineNo`. -/
def scanLines (options : OutlineOptions) (s : ScanState) (lineNo : Nat) : List Text → ScanState
  | [] => s
  | line :: lines =>
    let (s', n) := step options s lineNo line lines
    scanLines options s' (lineNo + 1 + n) (lines.drop n)
termination_by lines => lines.length
decreasing_by simp only [List.length_cons, List.length_drop]; omega

/-- The records of a finished scan, in the order of the source. -/
def ScanState.declarations (options : OutlineOptions) (s : ScanState) : Declarations :=
  let s := s.closeClass
  { functions := s.functions.reverse
    classes := if options.classes then s.classes.reverse else []
    imports := s.imports.reverse }

/-- The declarations of an indented source. -/
def declarations (options : OutlineOptions) (content : Text) : Declarations :=
  (scanLines options {} 1 (lines content)).declarations options

end CodeIndex.Indented
