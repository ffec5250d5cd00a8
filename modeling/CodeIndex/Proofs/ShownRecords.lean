import CodeIndex.Proofs.Build
import CodeIndex.Proofs.OutlineOptions

/-!
# Kinds of records that are not shown

The settings say which kinds of records an index shows. What it finds does not depend on them: every
file is read in full, and the rules look at all of its records (`isFull_of_read`), before the kinds
that are not shown are dropped. So the index under some settings is the one that shows everything,
restricted to what is shown (`indexOf_eq_restrict`), and two settings that show different kinds give
indexes that differ in the lists dropped and in the number of classes only (`build_showing`).
-/

namespace CodeIndex

open Script (allKinds)

/-- The settings with other kinds of records shown. -/
def Settings.showing (s : Settings) (shown : OutlineOptions) : Settings :=
  { s with
    includeClasses := shown.classes
    includeInterfaces := shown.interfaces
    includeImports := shown.imports }

/-! ## Reading in full -/

namespace FileIndex

variable {tree : Entry} {root path : Text} {f : FileIndex}

/-- The file was read in full: its outline lists all kinds of records, and its findings are what the
rules see in this outline. -/
def IsFull (tree : Entry) (root path : Text) (f : FileIndex) : Prop :=
  ∃ text broken, content tree path = .ok text ∧
    parseFile Extractor.all allKinds root path text = .ok (f.outline, broken) ∧
    f.findings = Detection.findings f.outline text

theorem isFull_of_read {remarks : List LogRecord} (h : read tree root path = .ok (f, remarks)) :
    f.IsFull tree root path := by
  unfold read at h
  split at h
  · cases h
  · next text hcontent =>
    unfold ofContent at h
    split at h
    · cases h
    · next outline broken hparse =>
      cases h
      exact ⟨text, broken, hcontent, hparse, rfl⟩

/-- The number of classes in some files. -/
def classTotal (fs : List FileIndex) : Int := (fs.map fun f => (f.outline.classes.length : Int)).sum

end FileIndex

namespace ProjectIndex

variable {shown : OutlineOptions}
  {read : Text → Except FileIndex.Error (FileIndex × List LogRecord)}

/-- The index with only the records of the kinds shown. Classes that are not shown are not
counted. -/
def restrict (shown : OutlineOptions) (p : ProjectIndex) : ProjectIndex :=
  { p with
    files := p.files.map fun o => { o with toDeclarations := o.toDeclarations.restrict shown }
    classCount := if shown.classes then p.classCount else 0 }

/-- **One more file**: what is added to the restricted index is what is added in full,
restricted. -/
theorem restrict_add (p : ProjectIndex) (f : FileIndex) :
    (p.add allKinds f).restrict shown = (p.restrict shown).add shown f := by
  cases h : shown.classes <;>
    simp [restrict, add, allKinds, Declarations.restrict, h]

theorem restrict_foldl_add (fs : List FileIndex) (p : ProjectIndex) :
    (fs.foldl (add allKinds) p).restrict shown = fs.foldl (add shown) (p.restrict shown) := by
  induction fs generalizing p with
  | nil => rfl
  | cons f fs ih => rw [List.foldl_cons, List.foldl_cons, ih, restrict_add]

/-- **An index is the one that shows everything, restricted to what is shown.** -/
theorem indexOf_eq_restrict (shown : OutlineOptions) (projectName generated : Text)
    (paths : List Text) :
    indexOf shown read projectName generated paths =
      (indexOf allKinds read projectName generated paths).restrict shown := by
  have hempty : ({ projectName, generated } : ProjectIndex) =
      ProjectIndex.restrict shown { projectName, generated } := by simp [restrict]
  rw [indexOf, indexOf, run_index, run_index, restrict_foldl_add, ← hempty]

theorem exists_read_of_mem_successes {paths : List Text} {f : FileIndex}
    (h : f ∈ successes read paths) :
    ∃ path remarks, path ∈ paths ∧ read path = .ok (f, remarks) := by
  obtain ⟨path, hpath, hread⟩ := List.mem_filterMap.1 h
  cases hresult : read path with
  | error e => simp [hresult, Except.toOption] at hread
  | ok found =>
    obtain ⟨g, remarks⟩ := found
    obtain rfl : g = f := by simpa [hresult, Except.toOption] using hread
    exact ⟨path, remarks, hpath, hresult⟩

/-- The files of an index that shows everything are those that were read, and its classes are
theirs. -/
theorem Collects.of_allKinds {fs : List FileIndex} {p : ProjectIndex} (h : Collects allKinds fs p) :
    p.files = fs.map (·.outline) ∧ p.classCount = FileIndex.classTotal fs := by
  have hfiles : p.files = fs.map (·.outline) := h.files
  refine ⟨hfiles, ?_⟩
  rw [h.classCount, hfiles, List.map_map]
  rfl

/-- Settings that show other kinds of records scan alike, and so they fail alike or make indexes of
the same files. -/
theorem build_error_or_exists (env : Environment) (s : Settings) (extensions : List Text)
    (tree : Entry) (given : Text) :
    (∃ e, ∀ shown, build env (s.showing shown) extensions tree given = .error e) ∨
      ∃ root paths, ∀ shown, ∃ p, build env (s.showing shown) extensions tree given = .ok p ∧
        p.index = indexOf shown (FileIndex.read tree root) (Path.name root) env.time paths := by
  cases hroot : env.realPath tree given with
  | error e =>
    refine .inl ⟨e, fun shown => ?_⟩
    simp only [build, hroot, bind, Except.bind]
  | ok root =>
    cases hscan : Scan.files env (scanOptions s extensions) tree root with
    | error e =>
      refine .inl ⟨e, fun shown => ?_⟩
      have hscan' : Scan.files env (scanOptions (s.showing shown) extensions) tree root =
        .error e := hscan
      simp only [build, hroot, hscan', bind, Except.bind]
    | ok found =>
      refine .inr ⟨root, found.1, fun shown => ?_⟩
      have hscan' : Scan.files env (scanOptions (s.showing shown) extensions) tree root =
          .ok (found.1, found.2) := hscan
      exact build_eq_indexOf hroot hscan'

/-- **What is shown does not change what is found.** Under two settings that differ only in the
kinds of records they show, a build fails alike, or it makes indexes of the same files, each read in
full with all rules applied to its full outline. The files of an index are the outlines of these,
without the kinds that are not shown; its number of classes is that of all of them, or zero where
classes are not shown; and all the rest is the same in both: name and time, the numbers of files and
functions, technologies, endpoints and tables. -/
theorem build_showing (env : Environment) (s : Settings) (extensions : List Text) (tree : Entry)
    (given : Text) (shown₁ shown₂ : OutlineOptions) :
    (∃ e, build env (s.showing shown₁) extensions tree given = .error e ∧
      build env (s.showing shown₂) extensions tree given = .error e) ∨
    ∃ (p₁ p₂ : Progress) (root : Text) (fs : List FileIndex),
      build env (s.showing shown₁) extensions tree given = .ok p₁ ∧
      build env (s.showing shown₂) extensions tree given = .ok p₂ ∧
      (∀ f ∈ fs, ∃ path, f.IsFull tree root path) ∧
      Collects shown₁ fs p₁.index ∧
      p₁.index.classCount = (if shown₁.classes then FileIndex.classTotal fs else 0) ∧
      p₂.index = { p₁.index with
        files := fs.map (FileIndex.shownOutline shown₂)
        classCount := if shown₂.classes then FileIndex.classTotal fs else 0 } := by
  rcases build_error_or_exists env s extensions tree given with ⟨e, he⟩ | ⟨root, paths, hbuild⟩
  · exact .inl ⟨e, he shown₁, he shown₂⟩
  · obtain ⟨p₁, hp₁, hindex₁⟩ := hbuild shown₁
    obtain ⟨p₂, hp₂, hindex₂⟩ := hbuild shown₂
    let full := indexOf allKinds (FileIndex.read tree root) (Path.name root) env.time paths
    let fs := successes (FileIndex.read tree root) paths
    obtain ⟨hfiles, hclasses⟩ : full.files = fs.map (·.outline) ∧
        full.classCount = FileIndex.classTotal fs :=
      (collects_indexOf (Path.name root) env.time paths).of_allKinds
    rw [indexOf_eq_restrict] at hindex₁ hindex₂
    have hshown (shown : OutlineOptions) : full.restrict shown = { full with
        files := fs.map (FileIndex.shownOutline shown)
        classCount := if shown.classes then FileIndex.classTotal fs else 0 } := by
      rw [restrict, hfiles, hclasses, List.map_map]
      rfl
    refine .inr ⟨p₁, p₂, root, fs, hp₁, hp₂, fun f hf => ?_, ?_⟩
    · obtain ⟨path, remarks, -, hread⟩ := exists_read_of_mem_successes hf
      exact ⟨path, FileIndex.isFull_of_read hread⟩
    · have hcollects : Collects shown₁ fs p₁.index := by
        rw [hindex₁, ← indexOf_eq_restrict]
        exact collects_indexOf (Path.name root) env.time paths
      refine ⟨hcollects, ?_, ?_⟩
      · rw [hindex₁, hshown]
      · rw [hindex₁, hindex₂, hshown, hshown]

end ProjectIndex

end CodeIndex
