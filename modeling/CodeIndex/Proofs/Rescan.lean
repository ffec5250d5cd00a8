import CodeIndex.Build
import CodeIndex.Proofs.FileTree.Links
import CodeIndex.Proofs.Scan
import Mathlib.Data.List.Sort

/-!
# Scanning a tree that has grown

Where a tree has grown without a change to the sources of a repository, its scan finds the same
files and says the same about them (`files_congr`), and so the index is the same (`build_congr`). A
place is no source when its suffix is not looked for; new directories are no sources at all.

The two walks are compared by the places that they keep: both list them in the order of
`Place.Precedes`, so they agree when they keep the same ones (`candidates_congr`).
-/

namespace CodeIndex

/-! ## The order of a walk -/

namespace Place

theorem Precedes.asymm {p q : Place} (h : Precedes p q) : ¬ Precedes q p := by
  induction p generalizing q with
  | nil => simp [Precedes] at h
  | cons a p ih =>
    match p, q with
    | [], [b] => exact Text.Lt.asymm h
    | [], _ :: _ :: _ => exact id
    | a' :: p, b :: b' :: q =>
      rcases h with h | ⟨rfl, h⟩
      · rintro (h' | ⟨rfl, -⟩)
        · exact h.asymm h'
        · exact Text.Lt.irrefl _ h
      · rintro (h' | ⟨-, h'⟩)
        · exact Text.Lt.irrefl a h'
        · exact ih h h'

instance : Std.Irrefl Precedes := ⟨Precedes.irrefl⟩

instance : Std.Antisymm Precedes := ⟨fun _ _ h h' => absurd h' h.asymm⟩

end Place

namespace Scan

open Entry (Grown SameWay KeptBelow)

variable {rules : List IgnoreRule} {extensions : List Text}
  {tree tree' repository repository' : Entry} {root : Text}

/-! ## The files of a walk -/

/-- In a plain tree a walk keeps files only. -/
theorem exists_file_of_keptBelow {links : Text → Bool} (hplain : repository.isPlain = true)
    {p : Place} (h : KeptBelow (choice rules links) [] repository p) :
    ∃ bytes, repository.faceAt p = some (.file bytes) := by
  obtain ⟨f, hf, hfile⟩ := h.isFile
  cases f with
  | file bytes => exact ⟨bytes, Entry.faceAt_eq_file.2 hf⟩
  | directory entries => simp [Entry.isFile] at hfile
  | link target => exact absurd hf (Entry.get?_ne_link hplain p target)

theorem keptBelow_congr {links links' : Text → Bool} {p : Place} {bytes : List UInt8}
    (h : KeptBelow (choice rules links) [] repository p)
    (hface : repository'.faceAt p = some (.file bytes)) :
    KeptBelow (choice rules links') [] repository' p where
  isFile := ⟨.file bytes, Entry.faceAt_eq_file.1 hface, rfl⟩
  keepsDirectories := h.keepsDirectories
  keepsFile := h.keepsFile

/-- The files with the right suffixes that no rule leaves out, by their places. -/
theorem exists_places_candidates (hdir : repository.isDirectory = true)
    (hplain : repository.isPlain = true) :
    ∃ places : List Place, candidates rules extensions tree root repository =
        places.map (fun p => Path.append root p.relativePath) ∧
      (∀ p, p ∈ places ↔ KeptBelow (choice rules (linksDirectory tree root)) [] repository p ∧
        Path.lowerSuffix p.relativePath ∈ extensions) ∧ places.Pairwise Place.Precedes := by
  obtain ⟨walked, hwalked, hmem, horder⟩ : ∃ places : List Place,
      repository.filesBelow (choice rules (linksDirectory tree root)) [] = _ ∧ _ :=
    Entry.exists_places_filesBelow hdir (Entry.isWellFormed_of_isPlain hplain)
  refine ⟨walked.filter fun p => extensions.contains (Path.lowerSuffix p.relativePath), ?_, ?_,
    horder.filter _⟩
  · rw [candidates, hwalked, List.filter_map, List.map_map]
    rfl
  · intro p
    rw [List.mem_filter, hmem, List.contains_iff_mem]

/-- **Walks over the same sources find the same files.** -/
theorem candidates_congr (hdir : repository.isDirectory = true) (hplain : repository.isPlain = true)
    (hdir' : repository'.isDirectory = true) (hplain' : repository'.isPlain = true)
    (hsame : ∀ p, Path.lowerSuffix (Place.relativePath p) ∈ extensions → ∀ bytes,
      repository'.faceAt p = some (.file bytes) ↔ repository.faceAt p = some (.file bytes)) :
    candidates rules extensions tree' root repository' =
      candidates rules extensions tree root repository := by
  obtain ⟨places, hplaces, hmem, horder⟩ : ∃ places : List Place,
      candidates rules extensions tree root repository = _ ∧ _ :=
    exists_places_candidates hdir hplain
  obtain ⟨places', hplaces', hmem', horder'⟩ : ∃ places : List Place,
      candidates rules extensions tree' root repository' = _ ∧ _ :=
    exists_places_candidates hdir' hplain'
  suffices places' = places by rw [hplaces, hplaces', this]
  refine horder'.eq_of_mem_iff horder fun p => ?_
  rw [hmem, hmem']
  constructor
  · rintro ⟨hkept, hsuffix⟩
    obtain ⟨bytes, hbytes⟩ := exists_file_of_keptBelow hplain' hkept
    exact ⟨keptBelow_congr hkept ((hsame p hsuffix bytes).1 hbytes), hsuffix⟩
  · rintro ⟨hkept, hsuffix⟩
    obtain ⟨bytes, hbytes⟩ := exists_file_of_keptBelow hplain hkept
    exact ⟨keptBelow_congr hkept ((hsame p hsuffix bytes).2 hbytes), hsuffix⟩

theorem exists_of_mem_candidates (hdir : repository.isDirectory = true)
    (hplain : repository.isPlain = true) {path : Text}
    (h : path ∈ candidates rules extensions tree root repository) :
    ∃ (p : Place) (bytes : List UInt8), path = Path.append root p.relativePath ∧
      repository.faceAt p = some (.file bytes) ∧ Path.lowerSuffix p.relativePath ∈ extensions := by
  obtain ⟨places, hplaces, hmem, -⟩ : ∃ places : List Place,
      candidates rules extensions tree root repository = _ ∧ _ :=
    exists_places_candidates hdir hplain
  rw [hplaces] at h
  obtain ⟨p, hp, rfl⟩ := List.mem_map.1 h
  obtain ⟨hkept, hsuffix⟩ := (hmem p).1 hp
  obtain ⟨bytes, hbytes⟩ := exists_file_of_keptBelow hplain hkept
  exact ⟨p, bytes, rfl, hbytes, hsuffix⟩

end Scan

/-! ## Ways that stay -/

namespace Entry

variable {files dirs : Place → Prop} {tree tree' : Entry} {path : Text} {r : Place}

/-- The way of a path stays, if each of its places is a directory or one where nothing is
written. -/
theorem Grown.sameWay (h : Grown files dirs tree tree') (hdirect : Path.IsDirect path)
    (hway : ∀ q, q <+: Path.components path → tree.faceAt q = some .directory ∨
      (¬ files q ∧ (dirs q → tree.faceAt q ≠ none))) : SameWay tree tree' path where
  direct := hdirect
  faces q hq := by
    rcases hway q hq with hdir | ⟨hfiles, hdirs⟩
    · rw [hdir, h.directories q hdir]
    · exact h.face_eq hfiles hdirs

/-- A repository in a tree: a directory to which a usable path leads. -/
structure IsRepository (tree : Entry) (r : Place) : Prop where
  proper : r.IsProper
  directory : tree.faceAt r = some .directory
  usable : Path.Usable r.path

namespace IsRepository

variable (hr : IsRepository tree r)
include hr

theorem components_path : Path.components r.path = r := Place.components_path hr.proper.isName

/-- The path to a place below the repository, from the one to the repository. -/
theorem append_path {p : Place} (hp : p.IsProper) :
    Path.append r.path p.relativePath = Place.path (r ++ p) :=
  Place.append_path hr.proper.isName hp.isName

/-- The places above a repository are directories. -/
theorem faceAt_above_root {q : Place} (hq : q <+: r) : tree.faceAt q = some .directory := by
  by_cases hqr : q = r
  · rw [hqr, hr.directory]
  · obtain ⟨entries, hentries⟩ := faceAt_eq_directory.1 hr.directory
    exact faceAt_above hq hqr hentries

/-- What a scan finds at the path of the repository. -/
theorem exists_stat (hplain : tree.isPlain = true) :
    ∃ repository, tree.stat r.path = .ok repository ∧ repository.isDirectory = true ∧
      repository.isPlain = true ∧ ∀ p, repository.faceAt p = tree.faceAt (r ++ p) := by
  obtain ⟨entries, hentries⟩ := faceAt_eq_directory.1 hr.directory
  refine ⟨.directory entries, ?_, rfl, (isPlain_of_get? hplain hentries).1, fun p => ?_⟩
  · exact (stat_eq_ok_iff hplain hr.proper.isDirect_path).2 ⟨hr.usable, by rwa [hr.components_path]⟩
  · rw [faceAt, faceAt, get?_append, hentries, Option.bind_some]

theorem grown (h : Grown files dirs tree tree') : IsRepository tree' r :=
  ⟨hr.proper, h.directories r hr.directory, hr.usable⟩

variable (h : Grown files dirs tree tree')
include h

/-- The way to a repository stays. -/
theorem sameWay : SameWay tree tree' r.path := by
  refine h.sameWay hr.proper.isDirect_path fun q hq => .inl ?_
  rw [hr.components_path] at hq
  exact hr.faceAt_above_root hq

/-- The way to a name in a repository stays, where nothing is written under that name. -/
theorem sameWay_name {name : Text} (hname : Path.IsProper name) (hfiles : ¬ files (r ++ [name]))
    (hdirs : ¬ dirs (r ++ [name])) : SameWay tree tree' (Place.path (r ++ [name])) := by
  have hproper := hr.proper.concat hname
  refine h.sameWay hproper.isDirect_path fun q hq => ?_
  rw [Place.components_path hproper.isName] at hq
  rcases List.prefix_concat_iff.1 hq with rfl | hq
  · exact .inr ⟨hfiles, fun hd => absurd hd hdirs⟩
  · exact .inl (hr.faceAt_above_root hq)

/-- The way to a file in a repository stays, unless it is written. -/
theorem sameWay_file {p : Place} (hp : p.IsProper) {bytes : List UInt8}
    (hfile : tree.faceAt (r ++ p) = some (.file bytes)) (hfiles : ¬ files (r ++ p)) :
    SameWay tree tree' (Place.path (r ++ p)) := by
  have hproper := hr.proper.append hp
  refine h.sameWay hproper.isDirect_path fun q hq => ?_
  rw [Place.components_path hproper.isName] at hq
  by_cases hqe : q = r ++ p
  · subst hqe
    exact .inr ⟨hfiles, by simp [hfile]⟩
  · exact .inl (faceAt_above hq hqe (faceAt_eq_file.1 hfile))

end IsRepository

end Entry

namespace Environment

variable {env : Environment} {tree tree' : Entry}

/-- Paths lead to the same places of all plain trees. -/
theorem realPath_congr (hplain : tree.isPlain = true) (hplain' : tree'.isPlain = true)
    (path : Text) : env.realPath tree' path = env.realPath tree path := by
  simp only [realPath, Entry.resolve_of_isPlain hplain, Entry.resolve_of_isPlain hplain']

/-- The path to a place is the real one. -/
theorem realPath_path (hplain : tree.isPlain = true) {r : Place} (hproper : r.IsProper)
    (husable : Path.Usable r.path) : env.realPath tree r.path = .ok r.path := by
  rw [realPath_path_eq env tree hproper, Entry.resolve_path hplain hproper husable.noNull]
  rfl

end Environment

namespace Scan

open Entry (Grown IsRepository)

variable {files dirs : Place → Prop} {tree tree' : Entry} {r : Place} {env : Environment}
  {options : ScanOptions}

/-- The name of the ignore file. -/
def ignoreFileName : Text := ".gitignore".toList

theorem isProper_ignoreFileName : Path.IsProper ignoreFileName := by decide

/-- Nothing is written where a scan of the repository looks: no source, and not the ignore file. -/
structure Spares (files dirs : Place → Prop) (r : Place) (extensions : List Text) : Prop where
  sources : ∀ p, files (r ++ p) → Path.lowerSuffix (Place.relativePath p) ∉ extensions
  ignoreFile : ¬ files (r ++ [ignoreFileName]) ∧ ¬ dirs (r ++ [ignoreFileName])

theorem verdict_congr (hplain : tree.isPlain = true) (hplain' : tree'.isPlain = true) {path : Text}
    (h : Entry.SameWay tree tree' path) (maxFileSize : Int) :
    verdict tree' maxFileSize path = verdict tree maxFileSize path := by
  obtain ⟨err, he, he'⟩ | ⟨e, e', he, he', hface⟩ := Entry.stat_congr hplain hplain' h
  · simp only [verdict, he, he']
  · have hsize : e'.size = e.size := by
      cases e <;> cases e' <;> simp_all [Entry.face, Entry.size]
    simp only [verdict, he, he', hsize]

/-- The files of a scan, from those of the walk. -/
def judge (tree : Entry) (maxFileSize : Int) (found : List Text) : List Text × List LogRecord :=
  let judged := found.map fun file => (file, verdict tree maxFileSize file)
  ((judged.filter (·.2 = .kept)).map (·.1), judged.flatMap fun (file, v) => v.log file)

/-- Trees that agree on the way to each file of a walk agree on what is kept of them. -/
theorem judge_congr (hplain : tree.isPlain = true) (hplain' : tree'.isPlain = true)
    {found : List Text} (h : ∀ file ∈ found, Entry.SameWay tree tree' file) (maxFileSize : Int) :
    judge tree' maxFileSize found = judge tree maxFileSize found := by
  have hverdicts : found.map (fun file => (file, verdict tree' maxFileSize file)) =
      found.map fun file => (file, verdict tree maxFileSize file) :=
    List.map_congr_left fun file hfile => by rw [verdict_congr hplain hplain' (h file hfile)]
  simp only [judge, hverdicts]

section Grown

variable (hplain : tree.isPlain = true) (hgrown : Grown files dirs tree tree')
  (hr : IsRepository tree r)
include hplain hgrown hr

theorem ignoreFileRules_congr {extensions : List Text} (hspares : Spares files dirs r extensions) :
    ignoreFileRules tree' r.path = ignoreFileRules tree r.path := by
  have hway : Entry.SameWay tree tree' (Place.path (r ++ [ignoreFileName])) :=
    hr.sameWay_name hgrown isProper_ignoreFileName hspares.ignoreFile.1 hspares.ignoreFile.2
  have hpath : Path.append r.path ".gitignore".toList = Place.path (r ++ [ignoreFileName]) :=
    Place.append_name hr.proper.isName isProper_ignoreFileName.1
  simp only [ignoreFileRules, hpath, Entry.pathExists_congr hplain (hgrown.plain hplain) hway,
    Entry.readFile_congr hplain (hgrown.plain hplain) hway]

/-- The way to each file of a walk stays. -/
theorem sameWay_of_mem_candidates {rules : List IgnoreRule} {repository : Entry} {path : Text}
    (hspares : Spares files dirs r options.extensions) (hstat : tree.stat r.path = .ok repository)
    (h : path ∈ candidates rules options.extensions tree r.path repository) :
    Entry.SameWay tree tree' path := by
  obtain ⟨repository', hstat', hdir, hrepository, hfaces⟩ := hr.exists_stat hplain
  obtain rfl : repository' = repository := Except.ok.inj (hstat'.symm.trans hstat)
  obtain ⟨p, bytes, rfl, hfile, hsuffix⟩ := exists_of_mem_candidates hdir hrepository h
  have hp : p.IsProper := (Entry.isPlain_of_get? hrepository (Entry.faceAt_eq_file.1 hfile)).2
  rw [hfaces] at hfile
  rw [hr.append_path hp]
  exact hr.sameWay_file hgrown hp hfile fun hf => hspares.sources p hf hsuffix

omit hgrown in
theorem files_of_stat {repository : Entry} (hstat : tree.stat r.path = .ok repository)
    (hdir : repository.isDirectory = true) :
    Scan.files env options tree r.path =
      (FileError.lift (ignoreFileRules tree r.path)).map fun rules => judge tree options.maxFileSize
        (candidates (rules ++ IgnoreRule.ofPatterns options.excludePaths) options.extensions tree
          r.path repository) := by
  have hstat? : tree.stat? r.path = .ok (some repository) := by rw [Entry.stat?, hstat]
  simp only [Scan.files, Environment.realPath_path hplain hr.proper hr.usable, hstat?,
    FileError.lift, hdir, bind, Except.bind, pure, Except.pure, Bool.not_true, Bool.false_eq_true,
    ↓reduceIte, judge]
  cases ignoreFileRules tree r.path <;> rfl

/-- **A scan of a tree that has grown finds the same files and says the same about them.** -/
theorem files_congr (hspares : Spares files dirs r options.extensions) :
    Scan.files env options tree' r.path = Scan.files env options tree r.path := by
  have hplain' := hgrown.plain hplain
  have hr' := hr.grown hgrown
  obtain ⟨repository, hstat, hdir, hrepository, hfaces⟩ := hr.exists_stat hplain
  obtain ⟨repository', hstat', hdir', hrepository', hfaces'⟩ := hr'.exists_stat hplain'
  have hfound (rules : List IgnoreRule) :
      candidates rules options.extensions tree' r.path repository' =
        candidates rules options.extensions tree r.path repository := by
    refine candidates_congr hdir hrepository hdir' hrepository' fun p hsuffix bytes => ?_
    rw [hfaces, hfaces']
    rcases hgrown.faces (r ++ p) fun hf => hspares.sources p hf hsuffix with heq | ⟨-, hnone, hnew⟩
    · rw [heq]
    · simp [hnone, hnew]
  have hjudge (rules : List IgnoreRule) :
      judge tree' options.maxFileSize (candidates rules options.extensions tree r.path repository) =
        judge tree options.maxFileSize
          (candidates rules options.extensions tree r.path repository) :=
    judge_congr hplain hplain'
      (fun file hfile => sameWay_of_mem_candidates hplain hgrown hr hspares hstat hfile) _
  rw [files_of_stat hplain hr hstat hdir, files_of_stat hplain' hr' hstat' hdir',
    ignoreFileRules_congr hplain hgrown hr hspares]
  simp only [hfound, hjudge]

/-- The way to each file of a scan stays: the files are among those of the walk. -/
theorem sameWay_of_mem_files (hspares : Spares files dirs r options.extensions) {paths : List Text}
    {log : List LogRecord} (h : Scan.files env options tree r.path = .ok (paths, log)) :
    ∀ path ∈ paths, Entry.SameWay tree tree' path := by
  obtain ⟨repository, hstat, hdir, -⟩ := hr.exists_stat hplain
  rw [files_of_stat hplain hr hstat hdir] at h
  cases hrules : FileError.lift (ignoreFileRules tree r.path) with
  | error e => simp [hrules, Except.map] at h
  | ok rules =>
    simp only [hrules, Except.map, judge, Except.ok.injEq, Prod.mk.injEq] at h
    obtain ⟨rfl, -⟩ := h
    intro path hpath
    obtain ⟨judged, hjudged, rfl⟩ := List.mem_map.1 hpath
    obtain ⟨file, hfile, rfl⟩ := List.mem_map.1 (List.mem_filter.1 hjudged).1
    exact sameWay_of_mem_candidates hplain hgrown hr hspares hstat hfile

end Grown

end Scan

namespace ProjectIndex

open Entry (Grown IsRepository)

variable {files dirs : Place → Prop} {tree tree' : Entry} {r : Place} {env : Environment}
  {s : Settings} {extensions : List Text}

/-- **The index of a tree that has grown is the same, and so is the log of its making.** -/
theorem build_congr (hplain : tree.isPlain = true) (hgrown : Grown files dirs tree tree')
    (hr : IsRepository tree r) (hspares : Scan.Spares files dirs r extensions) :
    build env s extensions tree' r.path = build env s extensions tree r.path := by
  have hplain' := hgrown.plain hplain
  have hroot : env.realPath tree r.path = .ok r.path := env.realPath_path hplain hr.proper hr.usable
  have hroot' : env.realPath tree' r.path = .ok r.path :=
    env.realPath_path hplain' hr.proper hr.usable
  have hfiles : Scan.files env (scanOptions s extensions) tree' r.path =
      Scan.files env (scanOptions s extensions) tree r.path :=
    Scan.files_congr hplain hgrown hr hspares
  simp only [build, hroot, hroot', hfiles, bind, Except.bind]
  cases hscan : Scan.files env (scanOptions s extensions) tree r.path with
  | error e => rfl
  | ok found =>
    have hread : ∀ path ∈ found.1,
        FileIndex.read tree' r.path path = FileIndex.read tree r.path path := by
      intro path hpath
      have hway := Scan.sameWay_of_mem_files hplain hgrown hr hspares hscan path hpath
      simp only [FileIndex.read, FileIndex.content, Entry.readFile_congr hplain hplain' hway]
    have hrun (p : Progress) : Progress.run s.shown (FileIndex.read tree' r.path) p found.1 =
        Progress.run s.shown (FileIndex.read tree r.path) p found.1 :=
      List.foldl_ext _ _ p fun q path hpath => by rw [hread path hpath]
    simp only [hrun]

end ProjectIndex

end CodeIndex
