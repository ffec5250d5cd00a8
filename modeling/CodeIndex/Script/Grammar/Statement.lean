import CodeIndex.Script.Grammar.Expression

/-!
# Statements of scripts

Each statement is a node. Where a statement stands inside another one, the token before it is a node
as well, so that the comments of the inner statement start after that token.
-/

namespace CodeIndex.Script.Grammar

open CodeIndex.Script.Parser

variable (g : Grammar)

/-- A statement inside another one, after the token before it. -/
def inner : Parser (List Node) := do
  let token ← lastToken
  return [token, ← g.statement]

/-! ## Variables -/

/-- A variable with its type and its value. -/
def declarator (ctx : Context) : Parser Node := do
  let m ← mark
  let name := (← g.pattern).withField "name"
  if g.dialect.types then let _ ← accept "!"
  let declared := (← g.declaredType).map (·.withField "type")
  let value ← if ← accept "=" then pure [(← g.expression ctx).withField "value"] else pure []
  close "variable_declarator" m (name :: declared.toList ++ value)

/-- Declared variables, from the keyword on and without a semicolon. -/
def variableList (ctx : Context) : Parser (List Node) := do
  let keyword ← match ← token with
    | .word w => punctuation w
    | _ => failure
  let first ← g.declarator ctx
  let more ← collect g.limit do
    unless ← accept "," do return none
    return some (← g.declarator ctx)
  return keyword :: first :: more

/-- The present word starts a declaration of variables. -/
def seesVariables : Parser Bool := do
  match ← token with
  | .word "const" | .word "var" => return true
  | .word "let" => next seesPattern
  | .word "using" =>
    next do
      return !(← newline) && (match ← token with | .word w => w ≠ "in" && w ≠ "of" | _ => false)
  | _ => return false

/-- The kind of a declaration of variables. -/
def variablesKind : Token → String
  | .word "var" => "variable_declaration"
  | .word "using" => "using_declaration"
  | _ => "lexical_declaration"

/-- A statement that declares variables. -/
def variableStatement : Parser Node := do
  let m ← mark
  let kind := variablesKind (← token)
  let children ← g.variableList {}
  g.semicolon
  close kind m children

/-! ## Control -/

/-- A condition in parentheses. -/
def condition : Parser (List Node) := do
  expect "("
  let n ← g.sequence {}
  expect ")"
  return n.parts

/-- A choice. -/
def ifStatement : Parser Node := do
  let m ← mark
  expectWord "if"
  let condition ← g.condition
  let yes ← g.inner
  let no ← if ← seesWord "else" then do
      let m ← mark
      advance
      pure [← close "else_clause" m (← g.inner)]
    else pure []
  close "if_statement" m (condition ++ yes ++ no)

/-- The first part of the head of a loop: variables or an expression, in which `in` is no
operator. -/
def loopStart : Parser (List Node) := do
  if ← sees ";" then return []
  if ← seesVariables then
    let token ← lastToken
    let m ← mark
    let kind := variablesKind (← Parser.token)
    let children ← g.variableList { allowIn := false }
    return [token, ← close kind m children]
  return (← g.sequence { allowIn := false }).parts

/-- An expression, unless the given mark comes first. -/
def optionalExpression (closing : String) : Parser (List Node) := do
  if ← sees closing then return []
  return (← g.sequence {}).parts

/-- A loop with `for`. -/
def forStatement : Parser Node := do
  let m ← mark
  expectWord "for"
  let _ ← acceptWord "await"
  expect "("
  let first ← g.loopStart
  let head ← if ← seesAnyWord ["of", "in"] then do
      advance
      let n ← g.sequence {}
      pure n.parts
    else do
      expect ";"
      let test ← g.optionalExpression ";"
      expect ";"
      let update ← g.optionalExpression ")"
      pure (test ++ update)
  expect ")"
  close "for_statement" m (first ++ head ++ (← g.inner))

/-- A loop with `while`, or a statement with `with`. -/
def whileStatement : Parser Node := do
  let m ← mark
  advance
  let condition ← g.condition
  close "while_statement" m (condition ++ (← g.inner))

/-- A loop whose condition stands at its end. -/
def doStatement : Parser Node := do
  let m ← mark
  expectWord "do"
  let body ← g.inner
  expectWord "while"
  let condition ← g.condition
  unless ← accept ";" do g.omittedSemicolon
  close "do_statement" m (body ++ condition)

/-- A case of a `switch`. -/
def switchCase : Parser Node := do
  let m ← mark
  let test ← if ← acceptWord "default" then pure [] else do
    expectWord "case"
    pure (← g.sequence {}).parts
  expect ":"
  let colon ← lastToken
  let body ← collect g.limit do
    if (← seesAnyWord ["case", "default"]) || (← sees "\x7d") then return none
    return some (← g.statement)
  close "switch_case" m (test ++ colon :: body)

/-- A choice between cases. -/
def switchStatement : Parser Node := do
  let m ← mark
  expectWord "switch"
  let value ← g.condition
  expect "\x7b"
  let cases ← collect g.limit do
    if ← accept "\x7d" then return none
    return some (← g.switchCase)
  close "switch_statement" m (value ++ cases)

/-- A block whose errors are caught. -/
def tryStatement : Parser Node := do
  let m ← mark
  expectWord "try"
  let body ← g.block
  let caught ← if ← acceptWord "catch" then do
      let parameter ← if ← accept "(" then do
          let n ← g.pattern
          let _ ← g.declaredType
          expect ")"
          pure n.children
        else pure []
      pure (parameter ++ [← g.block])
    else pure []
  let final ← if ← acceptWord "finally" then pure [← g.block] else pure []
  close "try_statement" m (body :: caught ++ final)

/-- A statement that is a word and perhaps an expression on the same line. -/
def wordStatement : Parser Node := do
  let m ← mark
  advance
  let value ← if (← newline) || (← seesAny [";", "\x7d"]) || (← token) = .finish then pure []
    else pure (← g.sequence {}).parts
  g.semicolon
  close "statement" m value

/-- A statement after a label. -/
def labeledStatement : Parser Node := do
  let m ← mark
  advance
  expect ":"
  close "labeled_statement" m (← g.inner)

/-- An expression as a statement. -/
def expressionStatement : Parser Node := do
  let m ← mark
  let n ← g.sequence {}
  g.semicolon
  close "expression_statement" m [n]

/-! ## Declarations of types -/

/-- An interface. -/
def interfaceStatement : Parser Node := do
  let m ← mark
  let keyword ← punctuation "interface"
  let name := (← identifier).withField "name"
  g.typeParameters
  if ← acceptWord "extends" then
    let _ ← collect g.limit do
      if ← sees "\x7b" then return none
      let _ ← g.unionType
      let _ ← accept ","
      return some ()
  let body := (← g.objectType "interface_body").withField "body"
  close "interface_declaration" m [keyword, name, body]

/-- A name for a type. -/
def typeStatement : Parser Node := do
  let m ← mark
  let keyword ← punctuation "type"
  let name := (← identifier).withField "name"
  g.typeParameters
  expect "="
  let value := (← g.type).withField "value"
  g.semicolon
  close "type_alias_declaration" m [keyword, name, value]

/-- An enumeration. -/
def enumStatement : Parser Node := do
  let m ← mark
  let _ ← acceptWord "const"
  expectWord "enum"
  anyWord
  expect "\x7b"
  let members ← g.commaList "\x7d" do
    let name ← g.propertyName
    if ← accept "=" then return name.children ++ (← g.expression {}).parts
    return name.children
  close "enum_declaration" m members.flatten

/-- A namespace or a module with its statements. -/
def moduleStatement : Parser Node := do
  let m ← mark
  advance
  if (← token) = .string then advance
  else
    anyWord
    let _ ← collect g.limit do
      unless ← accept "." do return none
      anyWord
      return some ()
  if ← sees "\x7b" then
    let body ← g.block
    close "module" m [body]
  else
    g.semicolon
    close "module" m []

/-- A declaration of what is defined elsewhere. -/
def ambientStatement : Parser Node := do
  let m ← mark
  let keyword ← punctuation "declare"
  if (← seesWord "global") && (← next (sees "\x7b")) then
    advance
    close "ambient_declaration" m [keyword, ← g.block]
  else
    close "ambient_declaration" m [keyword, ← g.statement]

/-! ## Imports and exports -/

/-- What an item between the braces of an import is made of: words and strings. -/
def specifierWord : Parser (Option (String × Node)) := do
  match ← token with
  | .word w => return some (w, ← leaf "identifier")
  | .string => return some ("", ← leaf "string")
  | _ => return none

/-- An item between the braces of an import: a name, perhaps after the word `type`, and perhaps with
another name after the word `as`. -/
def importSpecifier : Parser Node := do
  let m ← mark
  let words ← collect g.limit specifierWord
  let named (n : Node) := n.withField "name"
  let aliased (n : Node) := n.withField "alias"
  match words with
  | [(_, name)] | [("type", _), (_, name)] => close "import_specifier" m [named name]
  | [(_, name), ("as", _), (_, other)] | [("type", _), (_, name), ("as", _), (_, other)] =>
    close "import_specifier" m [named name, aliased other]
  | _ => failure

/-- A part of what an import binds. -/
def importPart : Parser Node := do
  let m ← mark
  if ← accept "\x7b" then
    let names ← g.commaList "\x7d" g.importSpecifier
    close "named_imports" m names
  else if ← accept "*" then
    expectWord "as"
    let name ← identifier
    close "namespace_import" m [name]
  else identifier

/-- What an import binds. -/
def importClause : Parser Node := do
  let m ← mark
  let first ← g.importPart
  let more ← collect g.limit do
    unless ← accept "," do return none
    return some (← g.importPart)
  close "import_clause" m (first :: more)

/-- Attributes of an import or of an export. -/
def importAttributes : Parser Unit := do
  if (← seesAnyWord ["with", "assert"]) && (← next (sees "\x7b")) then
    advance
    let _ ← g.primary

/-- The word `type` before what an import binds, rather than as a name. -/
def seesTypeOnly : Parser Bool := do
  unless g.dialect.types && (← seesAnyWord ["type", "typeof"]) do return false
  next do
    match ← token with
    | .word "from" => next (seesWord "from")
    | .word _ => return true
    | t => return t = .symbol "\x7b" || t = .symbol "*"

/-- The string that an import or an export takes its names from. -/
def moduleSource : Parser Node := do
  guard ((← token) = .string)
  let source ← leaf "string"
  g.importAttributes
  return source.withField "source"

/-- An import that names a value of another module or of a namespace after an equals sign. -/
def importAlias (m : Mark) : Parser Node := do
  anyWord
  expect "="
  let _ ← g.expression {}
  g.semicolon
  close "import_alias" m []

/-- An import. -/
def importStatement : Parser Node := do
  let m ← mark
  expectWord "import"
  if (← token) = .string then
    let source ← g.moduleSource
    g.semicolon
    close "import_statement" m [source]
  else
    if ← g.seesTypeOnly then advance
    if g.dialect.types && (← next (sees "=")) then return ← g.importAlias m
    let clause ← g.importClause
    expectWord "from"
    let source ← g.moduleSource
    g.semicolon
    close "import_statement" m [clause, source]

/-- The names of an export, and where they come from. -/
def exportedNames : Parser Unit := do
  if ← accept "*" then
    if ← acceptWord "as" then let _ ← g.propertyName
    expectWord "from"
    let _ ← g.moduleSource
  else
    expect "\x7b"
    let _ ← g.commaList "\x7d" g.importSpecifier
    if ← acceptWord "from" then let _ ← g.moduleSource
  g.semicolon

/-- The present tokens start a declaration that an export may hold. -/
def seesDeclaration : Parser Bool := do
  if (← seesFunction) || (← g.seesClass) || (← sees "@") then return true
  return g.dialect.types && (← seesWord "interface") &&
    (← next (match ← token with | .word _ => return true | _ => return false))

/-- An export of a value by default. -/
def exportDefault : Parser Node := do
  if ← g.seesDeclaration then
    let declared ← attempt do
      let n ← g.statement
      guard (n.isAny ["function_declaration", "generator_function_declaration",
        "function_signature", "class_declaration", "abstract_class_declaration",
        "interface_declaration"])
      return n
    if let some n := declared then return n
  let n ← g.expression {}
  g.semicolon
  return n

/-- An export, after the decorators before it. -/
def exportFrom (m : Mark) (decorators : List Node) : Parser Node := do
  let keyword ← punctuation "export"
  let head := decorators ++ [keyword]
  if ← seesWord "default" then
    let default ← punctuation "default"
    close "export_statement" m (head ++ [default, ← g.exportDefault])
  else if (← sees "*") || (← sees "\x7b") then
    g.exportedNames
    close "export_statement" m head
  else if g.dialect.types && (← seesWord "type") && (← next (seesAny ["*", "\x7b"])) then
    advance
    g.exportedNames
    close "export_statement" m head
  else if g.dialect.types && (← sees "=") then
    advance
    let n ← g.expression {}
    g.semicolon
    close "export_statement" m (head ++ [n])
  else if g.dialect.types && (← seesWord "as") && (← next (seesWord "namespace")) then
    advance
    advance
    anyWord
    g.semicolon
    close "export_statement" m head
  else
    close "export_statement" m (head ++ [← g.statement])

/-! ## Statements -/

/-- A class or an export after decorators. -/
def decoratedStatement : Parser Node := do
  let m ← mark
  let decorators ← g.decorators
  if ← seesWord "export" then g.exportFrom m decorators else g.classFrom m true decorators

/-- The next token is a word on the same line. -/
def nextIsWord : Parser Bool :=
  next do
    if ← newline then return false
    match ← token with
    | .word w => return !(["in", "of", "instanceof", "as", "satisfies", "is"].contains w)
    | _ => return false

/-- A statement that starts with a word that is a keyword of types only in the right place. -/
def typedStatement (w : String) : Parser (Option Node) := do
  unless g.dialect.types do return none
  match w with
  | "interface" => if ← nextIsWord then return some (← g.interfaceStatement) else return none
  | "type" => if ← nextIsWord then attempt g.typeStatement else return none
  | "enum" => return some (← g.enumStatement)
  | "const" => if ← next (seesWord "enum") then return some (← g.enumStatement) else return none
  | "namespace" | "module" =>
    if (← nextIsWord) || (← next (return !(← newline) && (← token) = .string)) then
      attempt g.moduleStatement
    else return none
  | "declare" => if ← nextIsWord then return some (← g.ambientStatement) else return none
  | "abstract" =>
    if ← g.seesClass then return some (← g.classFrom (← mark) true []) else return none
  | _ => return none

/-- A statement that starts with a word. -/
def statementOfWord (w : String) : Parser Node := do
  if let some n ← g.typedStatement w then return n
  if ← seesFunction then return ← g.function true
  if ← seesVariables then return ← g.variableStatement
  match w with
  | "class" => g.classFrom (← mark) true []
  | "if" => g.ifStatement
  | "for" => g.forStatement
  | "while" | "with" => g.whileStatement
  | "do" => g.doStatement
  | "switch" => g.switchStatement
  | "try" => g.tryStatement
  | "return" | "throw" | "break" | "continue" | "debugger" => g.wordStatement
  | "export" => g.exportFrom (← mark) []
  | "import" => if ← next (seesAny ["(", "."]) then g.expressionStatement else g.importStatement
  | _ => if ← next (sees ":") then g.labeledStatement else g.expressionStatement

/-- A statement. -/
def statementBody : Parser Node := do
  match ← token with
  | .word w => g.statementOfWord w
  | .symbol "\x7b" => g.block
  | .symbol ";" =>
    let m ← mark
    advance
    close "empty_statement" m []
  | .symbol "@" => g.decoratedStatement
  | .finish => failure
  | _ => g.expressionStatement

end CodeIndex.Script.Grammar
