import CodeIndex.Proofs.FileTree.Links
import CodeIndex.Proofs.FileTree.Relative
import CodeIndex.Proofs.ShownRecords

/-!
# One heading for each directory

The report puts neighbouring files of one directory under one heading, so a directory has one
heading if its files are neighbours (`oneHeading_of_contiguous`). They are, for a scan lists the
files of a directory before those of its subdirectories: what comes between two files of one
directory lies there too (`Place.Precedes.between`). The files of an index are those of a scan
without some of them, and the directory part of their relative paths tells their directories apart
(`exists_places_of_files`).
-/

namespace CodeIndex

/-! ## Groups of neighbours -/

namespace Markdown

/-- What stands between two files of one directory is of that directory. -/
def Contiguous (files : List Outline) : Prop :=
  ∀ o x o', [o, x, o'].Sublist files → directory o.relativePath = directory o'.relativePath →
    directory x.relativePath = directory o.relativePath

/-- Each directory has one heading: its files are neighbours, no two groups are of one directory,
and the groups make up all files in their order, each under its own directory. -/
structure OneHeading (files : List Outline) : Prop where
  contiguous : Contiguous files
  distinct : ((groups files).map (·.1)).Nodup
  complete : (groups files).flatMap (·.2) = files
  headed : ∀ g ∈ groups files, g.2 ≠ [] ∧ ∀ o ∈ g.2, directory o.relativePath = g.1

/-- The first file is in the first group. -/
theorem exists_groups_cons (o : Outline) (files : List Outline) :
    ∃ os more, groups (o :: files) = (directory o.relativePath, o :: os) :: more := by
  rw [groups]
  split
  · split
    · exact ⟨_, _, rfl⟩
    · exact ⟨_, _, rfl⟩
  · exact ⟨_, _, rfl⟩

theorem flatMap_groups (files : List Outline) : (groups files).flatMap (·.2) = files := by
  induction files with
  | nil => rfl
  | cons o files ih =>
    rw [groups]
    split
    · next dir os more hgroups =>
      rw [hgroups, List.flatMap_cons] at ih
      split
      · rw [List.flatMap_cons, List.cons_append, ih]
      · rw [List.flatMap_cons, List.flatMap_cons, ih, List.singleton_append]
    · next hgroups =>
      rw [hgroups, List.flatMap_nil] at ih
      rw [← ih]
      rfl

theorem headed_groups (files : List Outline) :
    ∀ g ∈ groups files, g.2 ≠ [] ∧ ∀ o ∈ g.2, directory o.relativePath = g.1 := by
  induction files with
  | nil => simp [groups]
  | cons o files ih =>
    rw [groups]
    split
    · next dir os more hgroups =>
      rw [hgroups, List.forall_mem_cons] at ih
      split
      · next hdir =>
        refine List.forall_mem_cons.2 ⟨⟨by simp, List.forall_mem_cons.2 ⟨rfl, ?_⟩⟩, ih.2⟩
        rw [hdir]
        exact ih.1.2
      · exact List.forall_mem_cons.2 ⟨by simp, List.forall_mem_cons.2 ih⟩
    · simp

theorem Contiguous.sublist {files files' : List Outline} (h : Contiguous files)
    (hsub : files'.Sublist files) : Contiguous files' :=
  fun o x o' hlisted => h o x o' (hlisted.trans hsub)

/-- **Where the files of each directory are neighbours, each directory has one group.** -/
theorem nodup_groups {files : List Outline} (h : Contiguous files) :
    ((groups files).map (·.1)).Nodup := by
  induction files with
  | nil => exact .nil
  | cons o files ih =>
    cases files with
    | nil => simp [groups]
    | cons x files =>
      have hrest := ih (h.sublist (List.sublist_cons_self o _))
      obtain ⟨os, more, hgroups⟩ := exists_groups_cons x files
      rw [groups]
      rw [hgroups] at hrest ⊢
      dsimp only
      split
      · next hdir =>
        rw [hdir]
        exact hrest
      · next hdir =>
        refine List.nodup_cons.2 ⟨fun hmem => hdir ?_, hrest⟩
        -- a later group of the directory of `o` would have `x` before it
        rw [← hgroups] at hmem
        obtain ⟨g, hg, hkey⟩ := List.mem_map.1 hmem
        obtain ⟨hne, hheaded⟩ := headed_groups (x :: files) g hg
        obtain ⟨o', ho'⟩ := List.exists_mem_of_ne_nil _ hne
        have hlater : o' ∈ x :: files := by
          rw [← flatMap_groups (x :: files)]
          exact List.mem_flatMap.2 ⟨g, hg, ho'⟩
        have hsame : directory o.relativePath = directory o'.relativePath := by
          rw [hheaded o' ho', hkey]
        rcases List.mem_cons.1 hlater with rfl | hlater
        · exact hsame
        · have hlisted : [o, x, o'].Sublist (o :: x :: files) :=
            ((List.singleton_sublist.2 hlater).cons_cons x).cons_cons o
          exact (h o x o' hlisted hsame).symm

theorem oneHeading_of_contiguous {files : List Outline} (h : Contiguous files) : OneHeading files :=
  ⟨h, nodup_groups h, flatMap_groups files, headed_groups files⟩

end Markdown

/-! ## The order of a scan -/

namespace Place

variable {p q s : Place}

/-- **What comes between two files of one directory is in that directory.** -/
theorem Precedes.between (hpq : Precedes p q) (hqs : Precedes q s) (h : p.dropLast = s.dropLast) :
    q.dropLast = p.dropLast := by
  induction p generalizing q s with
  | nil => simp [Precedes] at hpq
  | cons a p ih =>
    match p, q, s with
    | [], [b], _ => rfl
    | [], b :: b' :: q, c :: c' :: s => simp at h
    | a' :: p, b :: b' :: q, c :: c' :: s =>
      simp only [List.dropLast_cons_cons, List.cons.injEq] at h
      obtain ⟨rfl, h⟩ := h
      rcases hpq with hab | ⟨rfl, hpq⟩
      · rcases hqs with hba | ⟨rfl, -⟩
        · exact absurd hba hab.asymm
        · exact absurd hab (Text.Lt.irrefl _)
      · rcases hqs with hba | ⟨-, hqs⟩
        · exact absurd hba (Text.Lt.irrefl _)
        · rw [List.dropLast_cons_cons, List.dropLast_cons_cons, ih hpq hqs h]

/-- The place `p` below `root` is seen from `r` as that of a file: it is some way down, and not on
the way to `r` itself. -/
structure SeenFrom (r root p : Place) : Prop where
  ne_nil : p ≠ []
  proper : p.IsProper
  aside : ¬ root ++ p <+: r

/-- Directory parts of relative paths tell the directories of files apart. -/
theorem directory_relative_inj {r root : Place} (hr : r.IsProper) (hroot : root.IsProper)
    (hp : SeenFrom r root p) (hq : SeenFrom r root q) :
    Markdown.directory (Path.relative r.path (Place.path (root ++ p))) =
        Markdown.directory (Path.relative r.path (Place.path (root ++ q))) ↔
      p.dropLast = q.dropLast := by
  have hinit {p : Place} (hp : p.IsProper) : IsProper (root ++ p.dropLast) :=
    hroot.append fun n hn => hp n (List.dropLast_subset p hn)
  have hdirectory {p : Place} (hp : SeenFrom r root p) :
      Markdown.directory (Path.relative r.path (Place.path (root ++ p))) =
        Path.relative r.path (Place.path (root ++ p.dropLast)) := by
    obtain ⟨hne, hproper, hprefix⟩ := hp
    have hsplit : root ++ p = root ++ p.dropLast ++ [p.getLast hne] := by
      rw [List.append_assoc, List.dropLast_append_getLast]
    rw [hsplit] at hprefix ⊢
    exact directory_relative hr (hinit hproper) (hproper _ (List.getLast_mem hne)) hprefix
  rw [hdirectory hp, hdirectory hq]
  constructor
  · intro h
    exact List.append_cancel_left (relative_inj hr (hinit hp.proper) (hinit hq.proper) h)
  · intro h
    rw [h]

/-- Files of a scan are contiguous if their directory parts tell their directories apart, also when
some files of the scan are missing. -/
theorem contiguous_of_pairwise {places listed : List Place} {key : Place → Text}
    {files : List Outline} (horder : places.Pairwise Precedes)
    (hkey : ∀ p ∈ places, ∀ q ∈ places, key p = key q ↔ p.dropLast = q.dropLast)
    (hlisted : listed.Sublist places)
    (hfiles : files.map (fun o => Markdown.directory o.relativePath) = listed.map key) :
    Markdown.Contiguous files := by
  intro o x o' hsub hsame
  have hmap := hsub.map fun o => Markdown.directory o.relativePath
  rw [hfiles] at hmap
  obtain ⟨three, hthree, heq⟩ := List.sublist_map_iff.1 hmap
  obtain ⟨p, q, s, rfl⟩ := List.length_eq_three.1 (by simpa using (congrArg List.length heq).symm)
  simp only [List.map_cons, List.map_nil, List.cons.injEq, and_true] at heq
  obtain ⟨hp, hq, hs⟩ := heq
  have hplaces := hthree.trans hlisted
  have hmem : ∀ t ∈ [p, q, s], t ∈ places := fun t ht => hplaces.subset ht
  have hpairs := horder.sublist hplaces
  simp only [List.pairwise_cons, List.mem_cons, List.not_mem_nil, or_false, forall_eq_or_imp,
    forall_eq] at hpairs
  rw [hp, hs, hkey p (hmem p (by simp)) s (hmem s (by simp))] at hsame
  rw [hp, hq, hkey q (hmem q (by simp)) p (hmem p (by simp))]
  exact hpairs.1.1.between hpairs.2.1 hsame

end Place

/-! ## Where a scan finds files -/

namespace Scan

variable {tree repository : Entry} {rules : List IgnoreRule} {options : ScanOptions} {r p : Place}

/-- What a scan selects leads to no directory. -/
theorem isDirectory_of_selected {e : Entry} (hr : r.IsProper) (hp : p.IsProper)
    (hrepo : tree.stat r.path = .ok repository)
    (hselected : Selected rules options tree r.path repository p)
    (he : tree.stat (Place.path (r ++ p)) = .ok e) : e.isDirectory = false := by
  obtain ⟨f, hf, hfdir, hlink⟩ := hselected.isFile
  by_cases hislink : ∃ target, f = .link target
  · obtain ⟨target, rfl⟩ := hislink
    have hdirectory := hlink target rfl
    rwa [linksDirectory, Place.append_path hr.isName hp.isName, he] at hdirectory
  · -- the file is found where the repository was
    obtain ⟨cost, d, hd, hdrepo⟩ := Entry.exists_follows_of_stat hrepo
    obtain ⟨cost', g, hg, hge⟩ := Entry.exists_follows_of_stat he
    rw [Place.components_path hr.isName] at hd
    rw [Place.components_path (hr.append hp).isName] at hg
    obtain ⟨c, mid, c', hmid, hfollows⟩ := hg.exists_of_append
    obtain ⟨-, rfl⟩ := hd.unique hmid
    have hplace : tree.get? (d ++ p) = some f := by
      rw [Entry.get?_append, hdrepo, Option.bind_some, hf]
    have hreal : tree.IsReal (d ++ p) := by
      refine ⟨f.face, by rw [Entry.faceAt, hplace]; rfl, fun text htext => hislink ⟨text, ?_⟩⟩
      exact Entry.face_eq_link.1 htext
    obtain ⟨-, rfl⟩ := (hreal.follows hp).unique hfollows
    obtain rfl : f = e := Option.some.inj (hplace.symm.trans hge)
    exact hfdir

/-- **A scan from a place lists files below a directory, in their order.** None of them is on the
way to the place, which may lead there through links. -/
theorem exists_places_of_files {env : Environment} {paths : List Text} {log : List LogRecord}
    (hwf : tree.isWellFormed = true) (hproper : ∀ p e, tree.get? p = some e → Place.IsProper p)
    (hr : r.IsProper) (hscan : files env options tree r.path = .ok (paths, log)) :
    ∃ (root : Place) (places : List Place), root.IsProper ∧
      paths = places.map (fun p => Place.path (root ++ p)) ∧ places.Pairwise Place.Precedes ∧
      ∀ p ∈ places, Place.SeenFrom r root p := by
  obtain ⟨real, repository, rules, hreal, hrepo, hdir, hrules⟩ := exists_of_files_eq_ok hscan
  obtain rfl := Environment.eq_of_realPath_path hr hreal
  set root := (tree.followLinks tree.linkCount [] [] r).1 with hroot
  have hrootproper : root.IsProper :=
    Entry.isProper_followLinks (by simp [Place.IsProper]) fun n hn => (hr n hn).1.2.2
  obtain ⟨cost, d, -, hd⟩ := Entry.exists_follows_of_stat hrepo
  have hrepowf := Entry.isWellFormed_of_get? hwf hd
  set all := rules ++ IgnoreRule.ofPatterns options.excludePaths with hall
  obtain ⟨log', hlisted⟩ : ∃ log, files env options tree r.path = _ :=
    files_of_rules hreal hrepo hdir hrules
  obtain ⟨walked, hwalked, hmem, horder⟩ : ∃ places : List Place,
      repository.filesBelow (choice all (linksDirectory tree root.path)) [] = _ ∧ _ :=
    Entry.exists_places_filesBelow hdir hrepowf
  have hselected (p : Place)
      (hp : p ∈ walked.filter fun p => admits options tree root.path p.relativePath) :
      Selected all options tree root.path repository p ∧ p.IsProper := by
    rw [List.mem_filter, hmem, ← selected_iff] at hp
    obtain ⟨f, hf, -⟩ := hp.isFile
    have hplace : tree.get? (d ++ p) = some f := by rw [Entry.get?_append, hd, Option.bind_some, hf]
    exact ⟨hp, (List.forall_mem_append.1 (hproper _ _ hplace)).2⟩
  refine ⟨root, walked.filter fun p => admits options tree root.path p.relativePath, hrootproper,
    ?_, horder.filter _, fun p hp => ?_⟩
  · have hpaths : paths = listed all options tree root.path repository :=
      congrArg Prod.fst (Except.ok.inj (hscan.symm.trans hlisted))
    rw [hpaths, listed, hwalked, List.filter_map, List.map_map]
    refine List.map_congr_left fun p hp => ?_
    exact Place.append_path hrootproper.isName (hselected p hp).2.isName
  · obtain ⟨hselected, hp⟩ := hselected p hp
    obtain ⟨e, he, -⟩ := hselected.size
    rw [Place.append_path hrootproper.isName hp.isName] at he
    have hfile := isDirectory_of_selected hrootproper hp hrepo hselected he
    refine ⟨?_, hp, Entry.not_prefix_of_stat hr he hfile hrepo hdir⟩
    rintro rfl
    obtain ⟨f, hf, hfdir, -⟩ := hselected.isFile
    obtain rfl : repository = f := Option.some.inj hf
    simp [hdir] at hfdir

end Scan

/-! ## The files of an index -/

theorem Extractor.relativePath_of_extract {e : Extractor} {options : OutlineOptions}
    {root path content : Text} {outline : Outline} {broken : Bool}
    (h : e.extract options root path content = .ok (outline, broken)) :
    outline.relativePath = Path.relative root path := by
  cases e with
  | python =>
    simp only [extract] at h
    split at h
    · cases h
      rfl
    · cases h
  | script =>
    simp only [extract] at h
    split at h
    · cases h
    · cases h
      rfl

theorem FileIndex.relativePath_of_read {tree : Entry} {root path : Text} {f : FileIndex}
    {remarks : List LogRecord} (h : read tree root path = .ok (f, remarks)) :
    f.outline.relativePath = Path.relative root path := by
  obtain ⟨text, broken, -, hparse, -⟩ := isFull_of_read h
  obtain ⟨e, -, hextract⟩ := exists_of_bind_eq_ok hparse
  exact Extractor.relativePath_of_extract hextract

namespace ProjectIndex

variable {read : Text → Except FileIndex.Error (FileIndex × List LogRecord)} {root : Text}

/-- What is read of a file is kept under its path relative to a root. -/
def ReadsFrom (root : Text) (read : Text → Except FileIndex.Error (FileIndex × List LogRecord)) :
    Prop :=
  ∀ path f remarks, read path = .ok (f, remarks) → f.outline.relativePath = Path.relative root path

theorem readsFrom_read (tree : Entry) (root : Text) : ReadsFrom root (FileIndex.read tree root) :=
  fun _ _ _ hread => FileIndex.relativePath_of_read hread

theorem map_relativePath_successes (hread : ReadsFrom root read) (paths : List Text) :
    (successes read paths).map (·.outline.relativePath) =
      (paths.filter fun path => (read path).toBool).map (Path.relative root) := by
  induction paths with
  | nil => rfl
  | cons path paths ih =>
    rw [successes] at ih ⊢
    cases hpath : read path with
    | error e => simpa [hpath, Except.toOption, Except.toBool] using ih
    | ok found =>
      simpa [hpath, Except.toOption, Except.toBool, hread path found.1 found.2 hpath] using ih

/-- What is read of files in the order of their places is put under one heading for each directory,
also where some of the files fail. -/
theorem oneHeading_indexOf {r root : Place} {places : List Place} (hr : r.IsProper)
    (hroot : root.IsProper) (horder : places.Pairwise Place.Precedes)
    (hplaces : ∀ p ∈ places, Place.SeenFrom r root p) (hread : ReadsFrom r.path read)
    (shown : OutlineOptions) (projectName generated : Text) :
    Markdown.OneHeading (indexOf shown read projectName generated
      (places.map fun p => Place.path (root ++ p))).files := by
  set paths := places.map fun p => Place.path (root ++ p) with hpaths
  have hfiles : (indexOf shown read projectName generated paths).files.map (·.relativePath) =
      (paths.filter fun path => (read path).toBool).map (Path.relative r.path) := by
    rw [(collects_indexOf projectName generated paths).files, ← map_relativePath_successes hread,
      List.map_map]
    rfl
  refine Markdown.oneHeading_of_contiguous (Place.contiguous_of_pairwise horder
    (fun p hp q hq => Place.directory_relative_inj hr hroot (hplaces p hp) (hplaces q hq))
    (List.filter_sublist (p := fun p => (read (Place.path (root ++ p))).toBool)) ?_)
  have hdirectories := congrArg (List.map Markdown.directory) hfiles
  rw [hpaths, List.filter_map, List.map_map, List.map_map, List.map_map] at hdirectories
  exact hdirectories

/-- **Each directory has one heading.** Entries have different names, and none leads back. The index
of a repository that can be scanned lists the files that could be read; the files of each directory
are neighbours there, so that the report makes one group of them, and its groups make up the list.
This is so whichever of the scanned files fail, and whatever is read of the others. -/
theorem build_oneHeading {env : Environment} {s : Settings} {extensions : List Text} {tree : Entry}
    {given root : Text} {paths : List Text} {log : List LogRecord} (hwf : tree.isWellFormed = true)
    (hproper : ∀ p e, tree.get? p = some e → Place.IsProper p)
    (hpath : env.realPath tree given = .ok root)
    (hscan : Scan.files env (scanOptions s extensions) tree root = .ok (paths, log)) :
    (∃ p, build env s extensions tree given = .ok p ∧ Markdown.OneHeading p.index.files) ∧
      ∀ (shown : OutlineOptions) (read : Text → Except FileIndex.Error (FileIndex × List LogRecord))
        (projectName generated : Text), ReadsFrom root read →
        Markdown.OneHeading (indexOf shown read projectName generated paths).files := by
  obtain ⟨r, rfl, hr⟩ := Environment.exists_place_of_realPath hpath
  obtain ⟨root, places, hroot, hpaths, horder, hplaces⟩ :=
    Scan.exists_places_of_files hwf hproper hr hscan
  have hall (shown : OutlineOptions)
      (read : Text → Except FileIndex.Error (FileIndex × List LogRecord))
      (projectName generated : Text) (hread : ReadsFrom r.path read) :
      Markdown.OneHeading (indexOf shown read projectName generated paths).files := by
    rw [hpaths]
    exact oneHeading_indexOf hr hroot horder hplaces hread shown projectName generated
  refine ⟨?_, hall⟩
  obtain ⟨p, hbuild, hindex⟩ := build_eq_indexOf hpath hscan
  refine ⟨p, hbuild, ?_⟩
  rw [hindex]
  exact hall _ _ _ _ (readsFrom_read tree r.path)

/-- A repository with files above, between and below its directories, one of which holds no text. -/
def nestedRepository : Entry :=
  .directory [("b".toList, .directory [("y.py".toList, .file []),
    ("c".toList, .directory [("x.py".toList, .file [])]), ("d.py".toList, .file [255])]),
    ("b.py".toList, .file []), ("a".toList, .directory [("z.py".toList, .file [])])]

/-- The file tree that holds the repository. -/
def nestedTree : Entry := .directory [("r".toList, nestedRepository)]

def nestedSettings : Settings := { root := "/r".toList, outputPath := [], excludePaths := [] }

/-- Its files in the order of a scan. -/
def nestedPaths : List Text :=
  ["/r/b.py", "/r/a/z.py", "/r/b/d.py", "/r/b/y.py", "/r/b/c/x.py"].map String.toList

theorem build_oneHeading_nestedTree :
    Scan.files { workingDirectory := ['/'], time := [] } (scanOptions nestedSettings [".py".toList])
        nestedTree "/r".toList = .ok (nestedPaths, []) ∧
      ∃ p, build { workingDirectory := ['/'], time := [] } nestedSettings [".py".toList] nestedTree
        "/r".toList = .ok p ∧ Markdown.OneHeading p.index.files := by
  have hpath : Environment.realPath { workingDirectory := ['/'], time := [] } nestedTree
      "/r".toList = .ok "/r".toList := by cbv
  have hrepository : nestedTree.stat "/r".toList = .ok nestedRepository := by cbv
  have hrules : Scan.ignoreFileRules nestedTree "/r".toList = .ok [] := by cbv
  have hfound : Scan.candidates [] [".py".toList] nestedTree "/r".toList nestedRepository =
      nestedPaths := by
    simp +decide only [Scan.candidates, nestedRepository, Entry.filesBelow, Entry.filesIn,
      Entry.fileNames, Entry.filesBelowEach, Scan.choice, Text.sort, List.filterMap_cons,
      List.filterMap_nil, Entry.mergeSort_pair, List.mergeSort_singleton, List.mergeSort_nil,
      if_true, if_false]
  have hkept (path : Text) (h : path ∈ nestedPaths) : ∃ e, nestedTree.stat path = .ok e ∧
      (e.size : Int) ≤ (scanOptions nestedSettings [".py".toList]).maxFileSize := by
    simp only [nestedPaths, List.map_cons, List.map_nil, List.mem_cons, List.not_mem_nil,
      or_false] at h
    rcases h with rfl | rfl | rfl | rfl | rfl <;> exact ⟨_, by cbv, by decide⟩
  have hscan : Scan.files { workingDirectory := ['/'], time := [] }
      (scanOptions nestedSettings [".py".toList]) nestedTree "/r".toList = .ok (nestedPaths, []) :=
    Scan.files_eq_of_kept hpath hrepository rfl hrules hfound fun path h =>
      Scan.verdict_eq_kept_iff.2 (hkept path h)
  have hproper (p : Place) (e : Entry) (h : nestedTree.get? p = some e) : p.IsProper :=
    (Entry.isPlain_of_get? (by decide) h).2
  exact ⟨hscan, (build_oneHeading (by decide) hproper hpath hscan).1⟩

end ProjectIndex

end CodeIndex
