import CodeIndex.Script.Grammar.Function

/-!
# Types of scripts

Types hold no declarations, so a type makes a node only for what its text is needed for: an object
type keeps the properties that it declares, all other types are of the kind `type`.
-/

namespace CodeIndex.Script.Grammar

open CodeIndex.Script.Parser

variable (g : Grammar)

/-! ## Members of object types -/

/-- Words that modify a member of an object type. -/
def memberModifiers : List String :=
  ["readonly", "get", "set", "async", "static", "public", "private", "protected", "override"]

/-- Reads the words that modify a member, as long as a name follows. -/
def skipModifiers : Parser Unit := do
  let _ ← collect g.limit do
    if (← seesAny ["+", "-"]) && (← next (seesWord "readonly")) then
      advance
      advance
      return some ()
    if (← seesAnyWord memberModifiers) && (← next seesPropertyName) then
      advance
      return some ()
    return none

/-- A key in brackets that declares its own name: `[name: type]` or `[name in type]`. -/
def indexKey : Parser Unit := do
  expect "["
  anyWord
  unless ← accept ":" do expectWord "in"
  let _ ← g.type
  if ← acceptWord "as" then let _ ← g.type
  expect "]"

/-- An index signature, or the clause of a mapped type. -/
def indexSignature : Parser Node := do
  let m ← mark
  g.skipModifiers
  g.indexKey
  if ← seesAny ["+", "-"] then advance
  let _ ← accept "?"
  let _ ← g.declaredType
  close "index_signature" m []

/-- A call or a constructor of an object type. -/
def callSignature : Parser Node := do
  let m ← mark
  if ← seesAny ["(", "<"] then
    let _ ← g.signature
    close "call_signature" m []
  else
    expectWord "new"
    guard (← seesAny ["(", "<"])
    let _ ← g.signature
    close "construct_signature" m []

/-- A property or a method of an object type. -/
def memberSignature : Parser Node := do
  let m ← mark
  g.skipModifiers
  let name ← g.propertyName
  let _ ← accept "?"
  if ← seesAny ["(", "<"] then
    let _ ← g.signature
    close "method_signature" m [name.withField "name"]
  else
    let _ ← g.declaredType
    close "property_signature" m [name.withField "name"]

/-- The members of an object type, in braces. -/
def objectType (kind : String) : Parser Node := do
  let m ← mark
  expect "\x7b"
  let members ← collect g.limit do
    if ← accept "\x7d" then return none
    if ← seesAny [",", ";"] then return some [← punctuation ","]
    let member ← g.indexSignature <|> g.callSignature <|> g.memberSignature
    guard ((← seesAny [",", ";", "\x7d"]) || (← newline))
    return some [member]
  close kind m members.flatten

/-! ## Types -/

/-- Words that stand before a type. -/
def typeOperators : List String :=
  ["keyof", "unique", "readonly", "infer", "typeof", "asserts", "abstract", "new"]

/-- The present token can start a type, and a line does not end before it. -/
def seesType : Parser Bool := do
  if ← newline then return false
  match ← token with
  | .word w => return w ≠ "is" && w ≠ "extends"
  | .string | .number | .template => return true
  | t => return t = .symbol "(" || t = .symbol "[" || t = .symbol "\x7b" || t = .symbol "<"

/-- The parameters of a type of functions, and the arrow after them. -/
def functionTypeHead : Parser Unit := do
  g.typeParameters
  let _ ← g.parameters
  expect "=>"

/-- A name of a type with its parts and its arguments, or a statement on what `name is`. -/
def namedType : Parser Unit := do
  if (← seesWord "import") && (← next (sees "(")) then
    advance
    let _ ← g.arguments
  else anyWord
  let _ ← collect g.limit do
    unless ← accept "." do return none
    let _ ← g.propertyName
    return some ()
  if ← sees "<" then g.typeArguments
  if (← seesWord "is") && !(← newline) then
    advance
    let _ ← g.type

/-- An element of a tuple: it may be named, optional, or spread. -/
def tupleElement : Parser Unit := do
  let _ ← accept "..."
  let named ← attempt do
    anyWord
    let _ ← accept "?"
    expect ":"
    g.type
  if named.isNone then
    let _ ← g.type
    let _ ← accept "?"

/-- A type without operators. -/
def simpleType : Parser Node := do
  let m ← mark
  match ← token with
  | .word _ => g.namedType
  | .string | .number => advance
  | .template =>
    let _ ← g.template g.type
  | .symbol "(" | .symbol "<" =>
    if (← attempt g.functionTypeHead).isSome then
      let _ ← g.type
    else
      expect "("
      let _ ← g.type
      expect ")"
  | .symbol "[" =>
    advance
    let _ ← g.commaList "]" g.tupleElement
  | .symbol "\x7b" => return ← g.objectType "object_type"
  | .symbol "-" =>
    advance
    guard ((← token) = .number)
    advance
  | _ => failure
  close "type" m []

/-- A type with the operators before it and the brackets after it. -/
def typeOperand : Parser Node := do
  let m ← mark
  let operators ← collect g.limit do
    if (← seesAnyWord typeOperators) && (← next seesType) then
      let isInfer ← seesWord "infer"
      advance
      return some isInfer
    return none
  let n ← g.simpleType
  let suffixes ← collect g.limit do
    if (← sees "[") && !(← newline) then
      advance
      unless ← sees "]" do let _ ← g.type
      expect "]"
      return some ()
    return none
  if operators.contains true then
    if ← acceptWord "extends" then let _ ← g.simpleType
  if operators.isEmpty && suffixes.isEmpty then return n
  close "type" m []

/-- A union or an intersection of types, or a single type. -/
def unionType : Parser Node := do
  let m ← mark
  let leading ← seesAny ["|", "&"]
  if leading then advance
  let n ← g.typeOperand
  let more ← collect g.limit do
    unless ← seesAny ["|", "&"] do return none
    advance
    let _ ← g.typeOperand
    return some ()
  if !leading && more.isEmpty then return n
  close "type" m []

/-- A type, which may depend on whether one type extends another. -/
def typeBody : Parser Node := do
  let m ← mark
  let n ← g.unionType
  if (← seesWord "extends") && !(← newline) then
    advance
    let _ ← g.unionType
    expect "?"
    let _ ← g.type
    expect ":"
    let _ ← g.type
    close "type" m []
  else return n

end CodeIndex.Script.Grammar
