import CodeIndex.Build
import CodeIndex.Proofs.Scan
import Mathlib.Algebra.Ring.Int.Defs

/-!
# What an index collects

An index collects exactly what the files that could be read show (`Collects`), whichever they are: a
file that fails leaves no trace (`run_index`), and one that succeeds adds its share to every part of
the index (`Collects.add`). So the index of a scan never fails once the scan is done, it is the one
of the files that succeed, and its technologies do not depend on their order (`build_collects`).
-/

namespace CodeIndex

/-- The outline of a file with the records that the settings ask for. -/
def FileIndex.shownOutline (shown : OutlineOptions) (f : FileIndex) : Outline :=
  { f.outline with toDeclarations := f.outline.toDeclarations.restrict shown }

namespace ProjectIndex

variable {shown : OutlineOptions}
  {read : Text → Except FileIndex.Error (FileIndex × List LogRecord)}
  {fs : List FileIndex} {p : ProjectIndex}

/-- The index collects some files: their outlines in order and their totals, their endpoints and
tables one file after the other, and their technologies in strictly increasing order. -/
structure Collects (shown : OutlineOptions) (fs : List FileIndex) (p : ProjectIndex) : Prop where
  files : p.files = fs.map (FileIndex.shownOutline shown)
  fileCount : p.fileCount = p.files.length
  functionCount : p.functionCount = (p.files.map fun o => (o.functions.length : Int)).sum
  classCount : p.classCount = (p.files.map fun o => (o.classes.length : Int)).sum
  endpoints : p.endpoints = fs.flatMap (·.findings.endpoints)
  tables : p.tables = fs.flatMap (·.findings.tables)
  techStackIncreasing : p.techStack.Pairwise Text.Lt
  mem_techStack : ∀ t, t ∈ p.techStack ↔ ∃ f ∈ fs, t ∈ f.findings.technologies

theorem collects_nil (projectName generated : Text) :
    Collects shown [] { projectName, generated } :=
  ⟨rfl, rfl, rfl, rfl, rfl, rfl, .nil, by simp⟩

/-- **One more file adds its share to every part of the index.** -/
theorem Collects.add (h : Collects shown fs p) (f : FileIndex) :
    Collects shown (fs ++ [f]) (p.add shown f) where
  files := by simp [ProjectIndex.add, h.files, FileIndex.shownOutline]
  fileCount := by simp [ProjectIndex.add, h.fileCount]
  functionCount := by simp [ProjectIndex.add, h.functionCount]
  classCount := by simp [ProjectIndex.add, h.classCount]
  endpoints := by simp [ProjectIndex.add, Findings.merge, h.endpoints]
  tables := by simp [ProjectIndex.add, Findings.merge, h.tables]
  techStackIncreasing := Text.pairwise_sortedSet _
  mem_techStack t := by
    simp [ProjectIndex.add, Findings.merge, Text.mem_sortedSet, h.mem_techStack, or_and_right,
      exists_or]

theorem Collects.foldl (h : Collects shown fs p) (gs : List FileIndex) :
    Collects shown (fs ++ gs) (gs.foldl (ProjectIndex.add shown) p) := by
  induction gs generalizing fs p with
  | nil => simpa using h
  | cons g gs ih =>
    have := ih (h.add g)
    rwa [List.append_assoc, List.singleton_append] at this

/-- The technologies depend only on which files are collected. -/
theorem Collects.techStack_congr {gs : List FileIndex} {q : ProjectIndex} (h : Collects shown fs p)
    (h' : Collects shown gs q) (hmem : ∀ f, f ∈ fs ↔ f ∈ gs) : p.techStack = q.techStack := by
  refine Text.eq_of_pairwise_lt h.techStackIncreasing h'.techStackIncreasing fun t => ?_
  rw [h.mem_techStack, h'.mem_techStack]
  simp only [hmem]

/-! ## Files that fail -/

/-- What could be read of some files, in order. -/
def successes (read : Text → Except FileIndex.Error (FileIndex × List LogRecord))
    (paths : List Text) : List FileIndex :=
  paths.filterMap fun path => (read path).toOption.map (·.1)

/-- **A file that fails leaves the index alone.** -/
theorem next_index (p : Progress) (path : Text) :
    (p.next shown path (read path)).index = (successes read [path]).foldl (add shown) p.index := by
  cases h : read path with
  | error e => simp [Progress.next, successes, h, Except.toOption]
  | ok r => simp [Progress.next, successes, h, Except.toOption]

/-- **A run adds the files that succeed, and only these.** -/
theorem run_index (p : Progress) (paths : List Text) :
    (Progress.run shown read p paths).index = (successes read paths).foldl (add shown) p.index := by
  induction paths generalizing p with
  | nil => rfl
  | cons path paths ih =>
    have hsplit : successes read (path :: paths) =
        successes read [path] ++ successes read paths := by
      rw [successes, ← List.singleton_append, List.filterMap_append]
      rfl
    rw [hsplit, List.foldl_append, ← next_index p path]
    exact ih _

theorem successes_filter (paths : List Text) :
    successes read (paths.filter fun path => (read path).toBool) = successes read paths := by
  rw [successes, List.filterMap_filter, successes]
  refine List.filterMap_congr fun path _ => ?_
  cases read path <;> rfl

/-- The index of some files, each read by `read`, from nothing. -/
def indexOf (shown : OutlineOptions)
    (read : Text → Except FileIndex.Error (FileIndex × List LogRecord))
    (projectName generated : Text) (paths : List Text) : ProjectIndex :=
  (Progress.run shown read { index := { projectName, generated } } paths).index

theorem collects_indexOf (projectName generated : Text) (paths : List Text) :
    Collects shown (successes read paths) (indexOf shown read projectName generated paths) := by
  rw [indexOf, run_index]
  exact (collects_nil projectName generated).foldl (successes read paths)

/-- Once the scan is done, nothing fails. -/
theorem build_eq_indexOf {env : Environment} {s : Settings} {extensions : List Text} {tree : Entry}
    {given root : Text} {paths : List Text} {log : List LogRecord}
    (hpath : env.realPath tree given = .ok root)
    (hscan : Scan.files env (scanOptions s extensions) tree root = .ok (paths, log)) :
    ∃ p, build env s extensions tree given = .ok p ∧
      p.index = indexOf s.shown (FileIndex.read tree root) (Path.name root) env.time paths := by
  simp only [build, hpath, hscan, bind, Except.bind, pure, Except.pure]
  refine ⟨_, rfl, ?_⟩
  rw [indexOf, run_index, run_index]

/-- **Files that fail are isolated, and the index collects the others exactly.** For every list of
paths and every outcome of reading them, the index collects the files that succeed; it is the index
of the paths without those that fail; and its technologies do not depend on the order of the paths.
Once a repository has been scanned, its index is made this way and nothing fails. -/
theorem build_collects :
    (∀ (shown : OutlineOptions) (read : Text → Except FileIndex.Error (FileIndex × List LogRecord))
        (projectName generated : Text) (paths : List Text),
      Collects shown (successes read paths) (indexOf shown read projectName generated paths) ∧
        indexOf shown read projectName generated paths =
          indexOf shown read projectName generated (paths.filter fun path => (read path).toBool) ∧
        ∀ paths', paths'.Perm paths →
          (indexOf shown read projectName generated paths').techStack =
            (indexOf shown read projectName generated paths).techStack) ∧
    ∀ (env : Environment) (s : Settings) (extensions : List Text) (tree : Entry) (given root : Text)
        (paths : List Text) (log : List LogRecord),
      env.realPath tree given = .ok root →
      Scan.files env (scanOptions s extensions) tree root = .ok (paths, log) →
      ∃ p, build env s extensions tree given = .ok p ∧
        p.index = indexOf s.shown (FileIndex.read tree root) (Path.name root) env.time paths := by
  constructor
  · intro shown read projectName generated paths
    refine ⟨collects_indexOf projectName generated paths, ?_, fun paths' hperm => ?_⟩
    · rw [indexOf, indexOf, run_index, run_index, successes_filter]
    · refine Collects.techStack_congr (collects_indexOf projectName generated paths')
        (collects_indexOf projectName generated paths) fun f => ?_
      exact (hperm.filterMap _).mem_iff
  · intro env s extensions tree given root paths log hpath hscan
    exact build_eq_indexOf hpath hscan

/-- A repository with a file that holds no text and one that does. -/
def brokenFileRepository : Entry :=
  .directory [("a.py".toList, .file [255]), ("b.py".toList, .file [])]

/-- The file tree that holds the repository. -/
def brokenFileTree : Entry := .directory [("r".toList, brokenFileRepository)]

theorem build_brokenFileTree :
    ∃ p, build { workingDirectory := ['/'], time := [] }
        { root := "/r".toList, outputPath := [], excludePaths := [] } [".py".toList] brokenFileTree
        "/r".toList = .ok p ∧
      p.index = indexOf {} (FileIndex.read brokenFileTree "/r".toList) "r".toList []
        ["/r/a.py".toList, "/r/b.py".toList] := by
  have hpath : Environment.realPath { workingDirectory := ['/'], time := [] } brokenFileTree
      "/r".toList = .ok "/r".toList := by cbv
  have hrepository : brokenFileTree.stat "/r".toList = .ok brokenFileRepository := by cbv
  have hrules : Scan.ignoreFileRules brokenFileTree "/r".toList = .ok [] := by cbv
  have hfound : Scan.candidates [] [".py".toList] brokenFileTree "/r".toList brokenFileRepository =
      ["/r/a.py".toList, "/r/b.py".toList] := by
    simp +decide only [Scan.candidates, brokenFileRepository, Entry.filesBelow, Entry.filesIn,
      Entry.fileNames, Entry.filesBelowEach, Text.sort, List.filterMap_cons, List.filterMap_nil,
      Entry.mergeSort_pair, List.mergeSort_nil, if_true, if_false]
  have hfirst : brokenFileTree.stat "/r/a.py".toList = .ok (.file [255]) := by cbv
  have hsecond : brokenFileTree.stat "/r/b.py".toList = .ok (.file []) := by cbv
  refine build_collects.2 _ _ _ _ _ _ _ [] hpath
    (Scan.files_eq_of_kept hpath hrepository rfl hrules hfound ?_)
  simp only [List.forall_mem_cons]
  exact ⟨Scan.verdict_eq_kept_iff.2 ⟨_, hfirst, by decide⟩,
    Scan.verdict_eq_kept_iff.2 ⟨_, hsecond, by decide⟩, by simp⟩

end ProjectIndex

end CodeIndex
