import CodeIndex.Text.Basic

/-!
# Findings

What the rules infer from a file: HTTP endpoints, database tables with their columns, and the
technologies in use. `Findings.merge` adds the findings of one file to those of the files before.
-/

namespace CodeIndex

/-- An HTTP route and the function that answers it. -/
structure Endpoint where
  method : Text
  path : Text
  handler : Text
  file : Text
  line : Int
  auth : Bool := false
  deriving DecidableEq, Repr

/-- A column of a table; `foreign` names what it refers to. -/
structure Column where
  name : Text
  type : Text
  nullable : Bool := true
  primary : Bool := false
  foreign : Option Text := none
  deriving DecidableEq, Repr

/-- A database table. -/
structure Table where
  name : Text
  file : Text
  line : Int
  columns : List Column := []
  deriving DecidableEq, Repr

/-- The technologies, in code point order and each once, the endpoints and the tables found so
far. -/
structure Findings where
  technologies : List Text := []
  endpoints : List Endpoint := []
  tables : List Table := []
  deriving DecidableEq, Repr

/-- The findings of two files, one after the other. -/
def Findings.merge (a b : Findings) : Findings where
  technologies := Text.sortedSet (a.technologies ++ b.technologies)
  endpoints := a.endpoints ++ b.endpoints
  tables := a.tables ++ b.tables

end CodeIndex
