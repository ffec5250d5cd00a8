import CodeIndex.Endpoint.Controller
import CodeIndex.Endpoint.FileRoute
import CodeIndex.Endpoint.View
import CodeIndex.Schema.Entity
import CodeIndex.Schema.ModelField
import CodeIndex.Technology

/-!
# Detection

All rules for the language of a file, applied to its outline and its text.
-/

namespace CodeIndex.Detection

/-- A rule that infers endpoints from an outline and the text it was made from. -/
abbrev EndpointRule := Outline → Text → List Endpoint

/-- A rule that infers tables from an outline and the text it was made from. -/
abbrev TableRule := Outline → Text → List Table

/-- The language is one of the two script languages. -/
def isScript (language : Text) : Bool :=
  language = "typescript".toList || language = "javascript".toList

/-- The rules for endpoints in a language, in the order in which they are applied. -/
def endpointRules (language : Text) : List EndpointRule :=
  if language = "python".toList then [Endpoint.decorated, Endpoint.views]
  else if isScript language then
    [Endpoint.routerCalls, Endpoint.controllerRoutes, Endpoint.fileRoutes]
  else []

/-- The rules for tables in a language, in the order in which they are applied. -/
def tableRules (language : Text) : List TableRule :=
  if language = "python".toList then [Schema.declarativeTables, Schema.modelTables]
  else if isScript language then [Schema.entityTables]
  else []

/-- What a file shows. -/
def findings (outline : Outline) (content : Text) : Findings where
  technologies := Technology.ofImports outline.imports
  endpoints := (endpointRules outline.language).flatMap fun rule => rule outline content
  tables := (tableRules outline.language).flatMap fun rule => rule outline content

/-- The file uses a client whose tables are declared in a schema file that is not indexed. -/
def usesSchemaFile (outline : Outline) (content : Text) : Bool :=
  isScript outline.language &&
    Text.containsAny ["PrismaClient".toList, "@prisma/client".toList] content

end CodeIndex.Detection
