import CodeIndex.Config.Settings
import CodeIndex.Proofs.Scan

/-!
# Sections of a configuration document

What one section of a document can do to the settings. The section on output replaces the output
path and the format (`exists_of_withOutput`), the section on scanning the patterns to exclude and
the size limit, which stays positive (`exists_of_withScan`). Nothing else changes, whatever the
section holds.
-/

namespace CodeIndex.Settings

variable {s s' : Settings} {output scan : Value}

theorem mapError_eq_ok {ε ε' α : Type} {f : ε → ε'} {x : Except ε α} {a : α}
    (h : x.mapError f = .ok a) : x = .ok a := by
  cases x <;> cases h
  rfl

/-- **The section on output replaces the output path and the format only.** -/
theorem exists_of_withOutput (h : s.withOutput output = .ok s') :
    ∃ path format, s' = { s with outputPath := path, format := format } := by
  obtain ⟨path, -, h⟩ := exists_of_bind_eq_ok h
  obtain ⟨text, -, h⟩ := exists_of_bind_eq_ok h
  obtain ⟨format, -, h⟩ := exists_of_bind_eq_ok h
  exact ⟨path.getD s.outputPath, format, (Except.ok.inj h).symm⟩

/-- A size that is accepted is the default or positive. -/
theorem sizeOr_cases {default size : Int} {given : Option Int}
    (h : sizeOr default given = .ok size) : size = default ∨ 1 ≤ size := by
  cases given with
  | none => exact .inl (Except.ok.inj h).symm
  | some n =>
    rw [sizeOr] at h
    split at h
    · cases h
    · have hsize : n = size := Except.ok.inj h
      exact .inr (by omega)

/-- **The section on scanning replaces the patterns to exclude and the size limit only**, and it
gives no limit that is not positive. -/
theorem exists_of_withScan (h : s.withScan scan = .ok s') :
    ∃ excludePaths maxFileSize,
      s' = { s with excludePaths := excludePaths, maxFileSize := maxFileSize } ∧
        (maxFileSize = s.maxFileSize ∨ 1 ≤ maxFileSize) := by
  obtain ⟨excludePaths, -, h⟩ := exists_of_bind_eq_ok h
  obtain ⟨maxFileSize, hsize, h⟩ := exists_of_bind_eq_ok h
  exact ⟨excludePaths, maxFileSize, (Except.ok.inj h).symm, sizeOr_cases (mapError_eq_ok hsize)⟩

end CodeIndex.Settings
