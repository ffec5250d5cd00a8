import CodeIndex.Outline
import CodeIndex.Script.Node
import CodeIndex.Text.Blank

/-!
# The outline of a script

The declarations of a script are read off its syntax tree. Each node makes at most one record
(`Cursor.record?`), and a visit adds it to the list of its kind. A documentation comment is the last
block between the statement and what stands before it, comments and decorators aside.
-/

namespace CodeIndex.Script

open Text

/-- The bytes of a source. -/
abbrev Source := Array UInt8

/-- The text of a range of bytes; bytes that are no characters are left out. -/
def Source.text (s : Source) (start stop : Nat) : Text :=
  Utf8.decodeLenient (s.extract start stop).toList

/-- The text of a node. -/
def Source.nodeText (s : Source) (n : Node) : Text := s.text n.start n.stop

/-! ## Documentation comments -/

/-- The bodies of the documentation comments in a text. -/
def docBlocks (t : Text) : List Text :=
  match _h : cut? "/**".toList t with
  | none => []
  | some (_, rest) =>
    match _h' : cut? "*/".toList rest with
    | none => []
    | some (body, rest) => body :: docBlocks rest
termination_by t.length
decreasing_by
  have h₁ := length_of_cut? _h
  have h₂ := length_of_cut? _h'
  simp at h₁ h₂; omega

/-- A line of a documentation comment without its leading star. -/
def docLine (raw : Text) : Text :=
  trim <| match trimLeft raw with
    | '*' :: c :: t => if isBlank c then t else c :: t
    | '*' :: [] => []
    | _ => raw

/-- The description in the body of a documentation comment: its lines up to stars, without those
that start with a tag. -/
def cleanDocComment (body : Text) : Option Text :=
  let kept := ((splitChar '\n' body).map docLine).filter fun l => l ≠ [] && !startsWith ['@'] l
  match kept with
  | [] => none
  | kept => some (join [' '] kept)

namespace Cursor

/-- Where the comments and decorators before a node start: at the end of the nearest other sibling,
or at the start of the parent. -/
def triviaStart (c : Cursor) : Nat :=
  match c.before.find? (!·.isTrivia) with
  | some sibling => sibling.stop
  | none => match c.parent? with
    | some parent => parent.node.start
    | none => 0

/-- The description in the last documentation comment before a node. -/
def docComment (s : Source) (c : Cursor) : Option Text := do
  let body ← (docBlocks (s.text c.triviaStart c.node.start)).getLast?
  cleanDocComment body

/-- The node is exported directly. -/
def isExported (c : Cursor) : Bool := c.parent?.any (·.node.is "export_statement")

/-- The export statement around a node, or the node itself. -/
def outerStatement (c : Cursor) : Cursor :=
  match c.parent? with
  | some parent => if parent.node.is "export_statement" then parent else c
  | none => c

end Cursor

namespace Node

/-- The line, from 1, of the first child that is no comment or decorator. -/
def declarationLine (n : Node) : Int :=
  ((n.children.find? (!·.isTrivia)).getD n).row + 1

/-- A child of the given kind is among the children. -/
def hasToken (n : Node) (kind : String) : Bool := n.children.any (·.is kind)

/-- The text of the child in the role of the name. -/
def nameText (s : Source) (n : Node) : Text :=
  ((n.childByField? "name").map s.nodeText).getD "anonymous".toList

/-- The texts of the parameters. -/
def params (s : Source) (n : Node) : List Text :=
  match n.childByField? "parameters" with
  | some ps => (ps.namedChildren.filter (!·.is "comment")).map s.nodeText
  | none => ((n.childByField? "parameter").map s.nodeText).toList

/-- A type annotation without the colon before it. -/
def typeText (s : Source) (n : Node) : Text := trim (stripLeft (· = ':') (s.nodeText n))

/-- The annotation of the result. -/
def returnType (s : Source) (n : Node) : Option Text := do
  let t := (← n.childByField? "return_type").typeText s
  if t = [] then none else some t

/-- A function with the parts that its own node gives. -/
def function (s : Source) (n : Node) (name : Text) (line : Int) (isExported : Bool)
    (description : Option Text) : FunctionDecl :=
  { name, params := n.params s, line, returnType := n.returnType s, isAsync := n.hasToken "async",
    isExported, description }

/-- The property that a field of a class declares. -/
def property? (s : Source) (n : Node) : Option Text := do
  let name ← (n.childByField? "name").or (n.childByField? "property")
  let declared := ((n.childByField? "type").map (typeText s)).getD []
  return s.nodeText name ++ ": ".toList ++ (if declared = [] then "any".toList else declared)

/-- The names of the properties in the body of an interface. -/
def propertyNames (s : Source) (body : Node) : List Text :=
  (body.namedChildren.filter (·.is "property_signature")).filterMap fun m =>
    (m.childByField? "name").map s.nodeText

/-- The names that a part of an import clause binds. -/
def boundNames (s : Source) (n : Node) : List Text :=
  if n.is "identifier" then [s.nodeText n]
  else if n.is "named_imports" then
    (n.namedChildren.filter (·.is "import_specifier")).filterMap fun m =>
      ((m.childByField? "alias").or (m.childByField? "name")).map s.nodeText
  else if n.is "namespace_import" then
    (n.namedChildren.filter (·.is "identifier")).map s.nodeText
  else []

end Node

/-- A text without the quotes around it. -/
def unquote (t : Text) : Text :=
  match t with
  | q :: c :: rest =>
    if (q = '\'' || q = '"' || q = Char.ofNat 96) && (c :: rest).getLast? = some q then
      (c :: rest).dropLast
    else t
  | t => t

/-- Kinds of nodes that are function values. -/
def functionValues : List String := ["arrow_function", "function_expression", "function"]

/-- A record that a node makes. -/
inductive Record where
  | function (f : FunctionDecl)
  | classDecl (c : ClassDecl)
  | interface (i : InterfaceDecl)
  | importDecl (i : ImportDecl)
  deriving DecidableEq

namespace Cursor

/-- A function that is declared by its own node. -/
def functionDecl (s : Source) (c : Cursor) : FunctionDecl :=
  c.node.function s (c.node.nameText s) c.node.declarationLine c.isExported
    (c.outerStatement.docComment s)

/-- A variable whose value is a function. -/
def functionVariable (s : Source) (c : Cursor) (value : Node) : FunctionDecl :=
  let statement := c.parent?.getD c
  let outer := statement.outerStatement
  value.function s (c.node.nameText s) statement.node.declarationLine
    (outer.node.is "export_statement") (outer.docComment s)

/-- A class with the members of its body. -/
def classDecl (s : Source) (c : Cursor) : ClassDecl :=
  let members : List Cursor :=
    match c.children.find? fun b => b.node.field = some "body".toList with
    | some body => body.children.filter (·.node.isNamed)
    | none => []
  let isField (m : Node) : Bool := m.isAny ["public_field_definition", "field_definition"]
  { name := c.node.nameText s
    line := c.node.declarationLine
    methods := (members.filter (·.node.is "method_definition")).map fun m =>
      m.node.function s (m.node.nameText s) m.node.declarationLine false (m.docComment s)
    properties := (members.filter (isField ·.node)).filterMap fun m => m.node.property? s
    isExported := c.isExported
    description := c.outerStatement.docComment s }

/-- An interface, or a type alias, with the given body. -/
def interfaceDecl (s : Source) (c : Cursor) (body : Option Node) : InterfaceDecl :=
  { name := c.node.nameText s
    line := c.node.declarationLine
    properties := (body.map (·.propertyNames s)).getD []
    isExported := c.isExported
    description := c.outerStatement.docComment s }

/-- An import with a source in quotes. -/
def importDecl? (s : Source) (c : Cursor) : Option ImportDecl := do
  let source ← c.node.childByField? "source"
  guard (source.is "string")
  let clauses := c.node.namedChildren.filter (·.is "import_clause")
  return { source := unquote (s.nodeText source)
           imports := clauses.flatMap fun n => n.namedChildren.flatMap (·.boundNames s)
           line := c.node.row + 1 }

/-- The record that a node makes. -/
def record? (s : Source) (c : Cursor) : Option Record :=
  let n := c.node
  if n.isAny ["function_declaration", "generator_function_declaration"] then
    some (.function (c.functionDecl s))
  else if n.isAny functionValues && c.isExported then some (.function (c.functionDecl s))
  else if n.is "variable_declarator" then do
    let value ← n.childByField? "value"
    guard (value.isAny functionValues)
    return .function (c.functionVariable s value)
  else if n.isAny ["class_declaration", "abstract_class_declaration"] then
    some (.classDecl (c.classDecl s))
  else if n.is "interface_declaration" then
    some (.interface (c.interfaceDecl s (n.childByField? "body")))
  else if n.is "type_alias_declaration" then do
    let value ← n.childByField? "value"
    guard (value.is "object_type")
    return .interface (c.interfaceDecl s (some value))
  else if n.is "import_statement" then (c.importDecl? s).map .importDecl
  else none

end Cursor

/-- The declarations with the record of one more node, if it makes one of a kind that is asked
for. -/
def visit (options : OutlineOptions) (s : Source) (d : Declarations) (c : Cursor) : Declarations :=
  match c.record? s with
  | some (.function f) => { d with functions := d.functions ++ [f] }
  | some (.classDecl k) => if options.classes then { d with classes := d.classes ++ [k] } else d
  | some (.interface i) =>
    if options.interfaces then { d with interfaces := d.interfaces ++ [i] } else d
  | some (.importDecl i) => if options.imports then { d with imports := d.imports ++ [i] } else d
  | none => d

/-- The declarations of a syntax tree. -/
def declarations (options : OutlineOptions) (s : Source) (root : Node) : Declarations :=
  Cursor.walk (visit options s) {} [⟨root, .root⟩]

end CodeIndex.Script
