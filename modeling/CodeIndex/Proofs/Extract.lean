import CodeIndex.Extract
import CodeIndex.Proofs.Indented.Step

/-!
# Outlines of indented sources

The outline of an indented source lists what the scan of its lines has found.
-/

namespace CodeIndex.Indented

open Text

variable {options : OutlineOptions} {root path content : Text}

theorem extract_python (h : Extractor.python.supports path = true) (options : OutlineOptions)
    (root content : Text) :
    Extractor.python.extract options root path content =
      .ok ({ declarations options content with
        path, relativePath := Path.relative root path, language := "python".toList }, false) := by
  rw [Extractor.extract]
  exact if_pos h

section Extract

variable {outline : Outline} {broken : Bool}
  (h : Extractor.python.extract options root path content = .ok (outline, broken))
include h

theorem toDeclarations_of_extract : outline.toDeclarations = declarations options content := by
  rw [Extractor.extract] at h
  dsimp only at h
  split at h
  · obtain ⟨rfl, -⟩ := Prod.mk.inj (Except.ok.inj h)
    rfl
  · exact absurd h (by simp)

/-- All functions that the scan finds are listed. -/
theorem functions_of_extract :
    outline.functions = (scanLines options {} 1 (lines content)).found.functions := by
  rw [toDeclarations_of_extract h, declarations, ScanState.declarations_eq_found]

/-- The classes of an outline are those that the scan finds, or none. -/
theorem classes_sublist_of_extract :
    outline.classes.Sublist (scanLines options {} 1 (lines content)).found.classes := by
  rw [toDeclarations_of_extract h, declarations, ScanState.declarations_eq_found]
  dsimp only
  split
  · exact List.Sublist.refl _
  · exact List.nil_sublist _

theorem mem_found_of_extract {record : ClassDecl} (hrecord : record ∈ outline.classes) :
    record ∈ (scanLines options {} 1 (lines content)).found.classes :=
  (classes_sublist_of_extract h).subset hrecord

end Extract

end CodeIndex.Indented
