import CodeIndex.Finding
import CodeIndex.Outline

/-!
# The index of a project

The outlines of all files of a repository and what was found in them, with their totals.
-/

namespace CodeIndex

/-- The index of a project. -/
structure ProjectIndex where
  projectName : Text
  generated : Text
  fileCount : Int := 0
  functionCount : Int := 0
  classCount : Int := 0
  files : List Outline := []
  techStack : List Text := []
  endpoints : List Endpoint := []
  tables : List Table := []
  deriving DecidableEq, Repr

end CodeIndex
