import CodeIndex.Script.Grammar.Type

/-!
# Classes of scripts

A class has a head and a body of members. With types, the decorators of a method stand beside it in
the body, and those of a field inside it; without types, all decorators stand inside the member.
-/

namespace CodeIndex.Script.Grammar

open CodeIndex.Script.Parser

variable (g : Grammar)

/-! ## Members -/

/-- Words that modify a member of a class. -/
def classModifiers : List String :=
  ["public", "private", "protected", "static", "override", "readonly", "abstract", "declare",
    "accessor", "async", "get", "set"]

/-- A word that modifies a member, if a name follows. -/
def classModifier : Parser (Option Node) := do
  match ← token with
  | .word w =>
    unless classModifiers.contains w do return none
    unless ← next (do
      if w = "async" && (← newline) then return false
      return (← seesPropertyName) || (← sees "*")) do return none
    return some (← punctuation w)
  | _ => return none

/-- A member may end before the present token. -/
def memberEnd : Parser Unit := do
  guard ((← seesAny [";", ",", "\x7d"]) || (← newline))

/-- A method or a field after its decorators. -/
def member (decorators : List Node) (m : Mark) : Parser (List Node) := do
  let here ← mark
  let modifiers ← collect g.limit classModifier
  let star ← if ← sees "*" then pure [← punctuation "*"] else pure []
  let name ← g.propertyName
  if g.dialect.types && (← seesAny ["?", "!"]) then advance
  if (← sees "(") || (g.dialect.types && (← sees "<")) then
    let head := modifiers ++ star ++ [name.withField "name"] ++ (← g.signature)
    if ← sees "\x7b" then
      let children := head ++ [(← g.block).withField "body"]
      if g.dialect.types then return decorators ++ [← close "method_definition" here children]
      return [← close "method_definition" m (decorators ++ children)]
    guard g.dialect.types
    memberEnd
    return decorators ++ [← close "method_signature" here head]
  else
    let declared := (← g.declaredType).map (·.withField "type")
    let value ← if ← accept "=" then pure [(← g.expression {}).withField "value"] else pure []
    memberEnd
    let kind := if g.dialect.types then "public_field_definition" else "field_definition"
    let role := if g.dialect.types then "name" else "property"
    return [← close kind m
      (decorators ++ modifiers ++ [name.withField role] ++ declared.toList ++ value)]

/-- An index signature as a member of a class. -/
def indexMember : Parser (List Node) := do
  guard g.dialect.types
  let n ← g.indexSignature
  memberEnd
  return [n]

/-- Statements that run when a class is made. -/
def staticBlock : Parser (List Node) := do
  let m ← mark
  expectWord "static"
  let body ← g.block
  return [← close "class_static_block" m [body]]

/-- A member of a class with its decorators, or a separator. -/
def classElement : Parser (List Node) := do
  if ← seesAny [";", ","] then return [← punctuation ";"]
  let m ← mark
  let decorators ← g.decorators
  g.staticBlock <|> g.indexMember <|> g.member decorators m

/-- The members of a class, in braces. -/
def classBody : Parser Node := do
  let m ← mark
  expect "\x7b"
  let opening ← lastToken
  let members ← collect g.limit do
    if ← accept "\x7d" then return none
    return some (← g.classElement)
  close "class_body" m (opening :: members.flatten)

/-! ## Heads -/

/-- The name of a class, if it has one. -/
def className : Parser (List Node) := do
  match ← token with
  | .word w =>
    if w = "extends" || w = "implements" then return []
    return [(← identifier).withField "name"]
  | _ => return []

/-- What a class extends and implements. -/
def heritage : Parser (List Node) := do
  let extended ← if ← acceptWord "extends" then pure (← g.expression {}).parts else pure []
  if g.dialect.types then
    if ← acceptWord "implements" then
      let _ ← collect g.limit do
        if ← sees "\x7b" then return none
        let _ ← g.unionType
        let _ ← accept ","
        return some ()
  return extended

/-- A class after its decorators, from the mark `m`. -/
def classFrom (m : Mark) (isStatement : Bool) (decorators : List Node) : Parser Node := do
  let isAbstract ←
    if g.dialect.types && (← seesWord "abstract") then pure [← punctuation "abstract"]
    else pure []
  guard (← seesWord "class")
  let keyword ← punctuation "class"
  let name ← className
  g.typeParameters
  let extended ← g.heritage
  let body := (← g.classBody).withField "body"
  let kind :=
    if !isStatement || name.isEmpty then "class"
    else if isAbstract.isEmpty then "class_declaration"
    else "abstract_class_declaration"
  if kind = "class_declaration" then g.omittedSemicolon
  close kind m (decorators ++ isAbstract ++ [keyword] ++ name ++ extended ++ [body])

/-- The present token starts a class. -/
def seesClass : Parser Bool := do
  if ← seesWord "class" then return true
  return g.dialect.types && (← seesWord "abstract") && (← next (seesWord "class"))

end CodeIndex.Script.Grammar
