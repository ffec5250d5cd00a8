import CodeIndex.Proofs.Extract
import CodeIndex.Proofs.Script.Records

/-!
# Kinds of records that are switched off

The options of an outline say which kinds of records it lists; what it lists of the other kinds does
not depend on them. The scan of an indented source looks at its options only where it meets
an import (`scanLines_congr_options`): a class that is not listed is still tracked to its end. In a
script the options decide at every node, and switching a kind off there comes to the same as
dropping its list at the end (`restrict_visit`, `declarations_eq_restrict`).
-/

namespace CodeIndex

namespace Indented

variable {options₁ options₂ : OutlineOptions} (h : options₁.imports = options₂.imports)
include h

theorem stepOuter_congr_options (s : ScanState) (n : Nat) (code trailing : Text) (indent : Nat)
    (following : List Text) :
    stepOuter options₁ s n code trailing indent following =
      stepOuter options₂ s n code trailing indent following := by
  simp only [stepOuter, h]

theorem stepCode_congr_options (s : ScanState) (n : Nat) (code trailing : Text) (indent : Nat)
    (following : List Text) :
    stepCode options₁ s n code trailing indent following =
      stepCode options₂ s n code trailing indent following := by
  simp only [stepCode, stepOuter_congr_options h]

/-- A step looks at the options only where it may meet an import. -/
theorem step_congr_options (s : ScanState) (n : Nat) (line : Text) (following : List Text) :
    step options₁ s n line following = step options₂ s n line following := by
  simp only [step, stepCode_congr_options h]

/-- **Scans that both look for imports, or both do not, go through the same states.** -/
theorem scanLines_congr_options (s : ScanState) (n : Nat) (lines : List Text) :
    scanLines options₁ s n lines = scanLines options₂ s n lines := by
  fun_induction scanLines options₁ s n lines with
  | case1 s n => rw [scanLines]
  | case2 s n line lines s' k hstep ih =>
    rw [step_congr_options h] at hstep
    rw [scanLines, hstep]
    exact ih

/-- **Options with the same choice of imports give the same records, but for the classes**: these
are all classes that the scan finds with this choice, or none. -/
theorem declarations_congr_options (content : Text) :
    declarations options₁ content =
      { declarations options₂ content with
        classes := if options₁.classes then
          (declarations { classes := true, interfaces := true, imports := options₁.imports }
            content).classes else [] } := by
  have hscan := scanLines_congr_options h {} 1 (Text.lines content)
  have hfull : scanLines { classes := true, interfaces := true, imports := options₁.imports } {} 1
      (Text.lines content) = scanLines options₂ {} 1 (Text.lines content) := by
    refine scanLines_congr_options ?_ {} 1 _
    exact h
  simp only [declarations, ScanState.declarations, hscan, hfull, ↓reduceIte]

end Indented

namespace Script

variable {options : OutlineOptions} {s : Source}

/-- All kinds of records. -/
def allKinds : OutlineOptions := { classes := true, interfaces := true, imports := true }

/-- What a visit adds to the lists that are asked for does not depend on the others. -/
theorem restrict_visit (d : Declarations) (c : Cursor) :
    (visit allKinds s d c).restrict options = visit options s (d.restrict options) c := by
  unfold visit
  split
  · rfl
  · cases h : options.classes <;> simp [allKinds, Declarations.restrict, h]
  · cases h : options.interfaces <;> simp [allKinds, Declarations.restrict, h]
  · cases h : options.imports <;> simp [allKinds, Declarations.restrict, h]
  · rfl

theorem restrict_foldl_visit (cursors : List Cursor) (d : Declarations) :
    (cursors.foldl (visit allKinds s) d).restrict options =
      cursors.foldl (visit options s) (d.restrict options) := by
  induction cursors generalizing d with
  | nil => rfl
  | cons c cursors ih => rw [List.foldl_cons, List.foldl_cons, ih, restrict_visit]

/-- **The declarations of a script are those of all kinds, without the kinds that are switched
off.** -/
theorem declarations_eq_restrict (options : OutlineOptions) (s : Source) (root : Node) :
    declarations options s root = (declarations allKinds s root).restrict options := by
  have hempty : ({} : Declarations) = ({} : Declarations).restrict options := by
    simp [Declarations.restrict]
  rw [declarations_eq_foldl, declarations_eq_foldl, restrict_foldl_visit, ← hempty]

end Script

/-- **Switching a kind of records off only removes that kind.** Outlines of an indented source under
options with the same choice of imports differ in the classes only: each lists those of the outline
with all kinds and this choice of imports, or none. The declarations of a script are those of all
kinds without the kinds that are switched off. -/
theorem Extractor.switching_off_only_removes {options₁ options₂ : OutlineOptions}
    (h : options₁.imports = options₂.imports) :
    (∀ root path content : Text, Extractor.python.extract options₁ root path content =
      (Extractor.python.extract options₂ root path content).map fun (outline, broken) =>
        ({ outline with
          classes :=
            if options₁.classes then
              (Indented.declarations
                { classes := true, interfaces := true, imports := options₁.imports }
                content).classes
            else [] }, broken)) ∧
    ∀ (s : Script.Source) (root : Script.Node), Script.declarations options₁ s root =
      (Script.declarations { classes := true, interfaces := true, imports := true } s root).restrict
        options₁ := by
  refine ⟨fun root path content => ?_, Script.declarations_eq_restrict options₁⟩
  by_cases hsupports : Extractor.python.supports path = true
  · rw [Indented.extract_python hsupports, Indented.extract_python hsupports,
      Indented.declarations_congr_options h]
    rfl
  · have hfails (options : OutlineOptions) :
        Extractor.python.extract options root path content = .error ⟨path⟩ := by
      rw [Extractor.extract]
      exact if_neg hsupports
    rw [hfails, hfails]
    rfl

/-- Without classes and interfaces, the imports being read in both cases. -/
theorem Extractor.switching_off_only_removes_classes :
    (∀ root path content : Text,
      Extractor.python.extract { classes := false, interfaces := false, imports := true }
          root path content =
        (Extractor.python.extract { imports := true } root path content).map
          fun (outline, broken) => ({ outline with classes := [] }, broken)) ∧
    ∀ (s : Script.Source) (root : Script.Node),
      Script.declarations { classes := false, interfaces := false, imports := true } s root =
        (Script.declarations { classes := true, interfaces := true, imports := true }
          s root).restrict { classes := false, interfaces := false, imports := true } :=
  Extractor.switching_off_only_removes rfl

end CodeIndex
