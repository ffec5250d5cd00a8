import CodeIndex.Proofs.FileTree.Basic
import CodeIndex.Proofs.Ignore.Rule
import CodeIndex.Scan

/-!
# The files of a scan

A walk below a directory lists exactly the files that its choice keeps (`mem_filesBelow_iff`), in
the order of `Place.Precedes` (`pairwise_filesBelow`). So a scan lists exactly the files that no
rule and no excluded directory leaves out and whose suffix and size are admitted, each once
(`files_eq_selected`).
-/

namespace CodeIndex

/-! ## Steps that succeed -/

theorem exists_of_bind_eq_ok {ε α β : Type} {x : Except ε α} {f : α → Except ε β} {b : β}
    (h : (x >>= f) = .ok b) : ∃ a, x = .ok a ∧ f a = .ok b := by
  cases x with
  | error e => cases h
  | ok a => exact ⟨a, rfl, h⟩

theorem lift_eq_ok {α : Type} {x : Except FileError α} {a : α} (h : FileError.lift x = .ok a) :
    x = .ok a := by
  cases x <;> cases h
  rfl

namespace Entry

theorem stat?_eq_some_iff {tree e : Entry} {path : Text} :
    tree.stat? path = .ok (some e) ↔ tree.stat path = .ok e := by
  rw [stat?]
  cases tree.stat path with
  | ok f => simp
  | error err =>
    by_cases hlong : err.cause = .nameTooLong <;> simp [hlong]

/-! ## One directory -/

/-- The entry counts as a file: it is one, or a link that leads to no directory. -/
def isFile (choice : Choice) (path : Text) : Entry → Bool
  | file _ => true
  | directory _ => false
  | link _ => !choice.linksDirectory path

variable {choice : Choice}

theorem fileNames_eq (directory : Text) (entries : List (Text × Entry)) :
    fileNames choice directory entries =
      (entries.filter fun a => a.2.isFile choice (pathOf directory a.1)).map (·.1) := by
  induction entries with
  | nil => rfl
  | cons a entries ih =>
    rw [fileNames] at ih ⊢
    obtain ⟨name, e⟩ := a
    cases e with
    | file bytes => simp [ih, isFile]
    | directory es => simp [ih, isFile]
    | link target =>
      cases h : choice.linksDirectory (pathOf directory name) <;> simp [ih, isFile, h]

theorem filesBelowEach_eq (directory : Text) (entries : List (Text × Entry)) :
    filesBelowEach choice directory entries =
      (entries.filter fun a =>
        a.2.isDirectory && choice.keepsDirectory (pathOf directory a.1) a.1).map
          fun a => (a.1, a.2.filesBelow choice (pathOf directory a.1)) := by
  induction entries with
  | nil => simp [filesBelowEach]
  | cons a entries ih =>
    rw [filesBelowEach, ih]
    split
    · next h => rw [List.filter_cons, if_pos h, List.map_cons]
    · next h => rw [List.filter_cons, if_neg h]

theorem pathOf_relativePath {d : Place} (h : ∀ n ∈ d, Path.IsName n) (name : Text) :
    pathOf d.relativePath name = (d ++ [name]).relativePath := by
  rw [pathOf, Place.relativePath, Place.relativePath]
  cases d with
  | nil => simp [Text.join, List.intercalate]
  | cons n d =>
    have hne : Text.join ['/'] (n :: d) ≠ [] := by
      obtain ⟨c, n, rfl⟩ := List.exists_cons_of_ne_nil (h n (by simp)).1
      cases d with
      | nil => simp
      | cons m d => simp [Text.join_cons_cons]
    rw [if_neg hne, Text.join_append_singleton (by simp)]
    rfl

/-- Two elements are sorted by one comparison. -/
theorem mergeSort_pair {α : Type} (le : α → α → Bool) (a b : α) :
    [a, b].mergeSort le = if le a b then [a, b] else [b, a] := by
  simp [List.mergeSort, List.MergeSort.Internal.splitInTwo, List.merge]

/-! ## Kept files -/

/-- The walk below the place `d` of its root keeps the file at `p`: it counts as a file, the walk
enters every directory on the way, and it keeps the file itself. -/
structure KeptBelow (choice : Choice) (d : Place) (e : Entry) (p : Place) : Prop where
  isFile : ∃ f, e.get? p = some f ∧ f.isFile choice (d ++ p).relativePath = true
  keepsDirectories : ∀ q name rest, p = q ++ name :: rest → rest ≠ [] →
    choice.keepsDirectory (d ++ (q ++ [name])).relativePath name = true
  keepsFile : choice.keepsFile (d ++ p).relativePath = true

variable {d : Place} {entries : List (Text × Entry)} {name : Text}

theorem keptBelow_singleton (h : (entries.map (·.1)).Nodup) :
    KeptBelow choice d (.directory entries) [name] ↔
      (∃ e, (name, e) ∈ entries ∧ e.isFile choice (d ++ [name]).relativePath = true) ∧
        choice.keepsFile (d ++ [name]).relativePath = true := by
  constructor
  · rintro ⟨⟨f, hf, hfile⟩, -, hkeep⟩
    obtain ⟨e, he, hef⟩ := (get?_directory_cons h).1 hf
    obtain rfl : e = f := Option.some.inj hef
    exact ⟨⟨e, he, hfile⟩, hkeep⟩
  · rintro ⟨⟨e, he, hfile⟩, hkeep⟩
    refine ⟨⟨e, (get?_directory_cons h).2 ⟨e, he, rfl⟩, hfile⟩, fun q n rest hp hrest => ?_, hkeep⟩
    -- there is no directory on the way
    have := congrArg List.length hp
    have := List.length_pos_of_ne_nil hrest
    simp only [List.length_cons, List.length_nil, List.length_append] at *
    omega

theorem keptBelow_cons (h : (entries.map (·.1)).Nodup) {p : Place} (hp : p ≠ []) :
    KeptBelow choice d (.directory entries) (name :: p) ↔
      ∃ e, (name, e) ∈ entries ∧ e.isDirectory = true ∧
        choice.keepsDirectory (d ++ [name]).relativePath name = true ∧
          KeptBelow choice (d ++ [name]) e p := by
  have hassoc : ∀ q, d ++ [name] ++ q = d ++ name :: q := by simp
  constructor
  · rintro ⟨⟨f, hf, hfile⟩, hdirs, hkeep⟩
    obtain ⟨e, he, hef⟩ := (get?_directory_cons h).1 hf
    have hdir : e.isDirectory = true := by
      obtain ⟨m, p, rfl⟩ := List.exists_cons_of_ne_nil hp
      cases e with
      | directory es => rfl
      | file bytes => simp [get?] at hef
      | link target => simp [get?] at hef
    refine ⟨e, he, hdir, hdirs [] name p rfl hp, ⟨f, hef, ?_⟩, fun q n rest heq hrest => ?_, ?_⟩
    · rwa [hassoc]
    · rw [hassoc]
      exact hdirs (name :: q) n rest (by rw [heq]; rfl) hrest
    · rwa [hassoc]
  · rintro ⟨e, he, hdir, hkeepd, ⟨f, hef, hfile⟩, hdirs, hkeep⟩
    simp only [hassoc] at hfile hdirs hkeep
    refine ⟨⟨f, (get?_directory_cons h).2 ⟨e, he, hef⟩, hfile⟩, fun q n rest heq hrest => ?_, hkeep⟩
    cases q with
    | nil =>
      obtain ⟨rfl, rfl⟩ := List.cons.inj heq
      exact hkeepd
    | cons m q =>
      obtain ⟨rfl, hp'⟩ := List.cons.inj heq
      exact hdirs q n rest hp' hrest

/-- A walk lists files only below its directory. -/
theorem KeptBelow.ne_nil {e : Entry} {p : Place} (h : KeptBelow choice d e p)
    (he : e.isDirectory = true) : p ≠ [] := by
  rintro rfl
  obtain ⟨f, hf, hfile⟩ := h.isFile
  obtain rfl : e = f := Option.some.inj hf
  cases e <;> simp_all [isDirectory, Entry.isFile]

/-! ## The walk -/

theorem mem_filesIn_iff (hd : ∀ n ∈ d, Path.IsName n) (h : (entries.map (·.1)).Nodup) {f : Text} :
    f ∈ filesIn choice d.relativePath entries ↔
      ∃ n, f = (d ++ [n]).relativePath ∧ KeptBelow choice d (.directory entries) [n] := by
  simp only [filesIn, fileNames_eq, List.mem_filter, List.mem_map, (Text.sort_perm _).mem_iff,
    pathOf_relativePath hd, keptBelow_singleton h]
  constructor
  · rintro ⟨⟨n, ⟨⟨n', e⟩, ⟨he, hfile⟩, rfl⟩, rfl⟩, hkeep⟩
    exact ⟨n', rfl, ⟨e, he, hfile⟩, hkeep⟩
  · rintro ⟨n, rfl, ⟨e, he, hfile⟩, hkeep⟩
    exact ⟨⟨n, ⟨(n, e), ⟨he, hfile⟩, rfl⟩, rfl⟩, hkeep⟩

/-- **A walk lists exactly the files that it keeps.** -/
theorem mem_filesBelow_iff {e : Entry} (he : e.isDirectory = true) (hwf : e.isWellFormed = true)
    (hd : ∀ n ∈ d, Path.IsName n) {f : Text} :
    f ∈ e.filesBelow choice d.relativePath ↔
      ∃ p, f = (d ++ p).relativePath ∧ KeptBelow choice d e p := by
  induction e using Entry.induction generalizing d with
  | file bytes => simp [isDirectory] at he
  | link target => simp [isDirectory] at he
  | directory entries ih =>
    obtain ⟨hnodup, hnames, hentries⟩ := isWellFormed_directory.1 hwf
    have hd' : ∀ a ∈ entries, ∀ n ∈ d ++ [a.1], Path.IsName n := fun a ha =>
      List.forall_mem_append.2 ⟨hd, List.forall_mem_singleton.2 (hnames a ha)⟩
    -- the files of the directory itself, and those of each subdirectory that is entered
    rw [filesBelow, List.mem_append, mem_filesIn_iff hd hnodup, filesBelowEach_eq]
    simp only [List.mem_flatMap, (List.mergeSort_perm _ _).mem_iff, List.mem_map, List.mem_filter,
      Bool.and_eq_true]
    constructor
    · rintro (⟨n, rfl, hkept⟩ | ⟨_, ⟨a, ⟨ha, hdir, hkeep⟩, rfl⟩, hf⟩)
      · exact ⟨[n], rfl, hkept⟩
      · rw [pathOf_relativePath hd] at hf hkeep
        obtain ⟨p, rfl, hkept⟩ := (ih a ha hdir (hentries a ha) (hd' a ha)).1 hf
        refine ⟨a.1 :: p, by simp, ?_⟩
        exact (keptBelow_cons hnodup (hkept.ne_nil hdir)).2 ⟨a.2, ha, hdir, hkeep, hkept⟩
    · rintro ⟨p, rfl, hkept⟩
      obtain ⟨n, p, rfl⟩ := List.exists_cons_of_ne_nil (hkept.ne_nil rfl)
      cases p with
      | nil => exact .inl ⟨n, rfl, hkept⟩
      | cons m p =>
        obtain ⟨e, he, hdir, hkeep, hkept⟩ := (keptBelow_cons hnodup (by simp)).1 hkept
        refine .inr ⟨_, ⟨(n, e), ⟨he, hdir, ?_⟩, rfl⟩, ?_⟩
        · rwa [pathOf_relativePath hd]
        · rw [pathOf_relativePath hd]
          exact (ih (n, e) he hdir (hentries _ he) (hd' _ he)).2 ⟨m :: p, by simp, hkept⟩

/-! ## The order of the walk -/

/-- One path comes before another when the places they lead to do. -/
def PathPrecedes (f g : Text) : Prop := Place.Precedes (Path.components f) (Path.components g)

theorem components_of_keptBelow {e : Entry} (hwf : e.isWellFormed = true)
    (hd : ∀ n ∈ d, Path.IsName n) {p : Place} (h : KeptBelow choice d e p) :
    Path.components (d ++ p).relativePath = d ++ p := by
  obtain ⟨f, hf, -⟩ := h.isFile
  exact Place.components_relativePath (List.forall_mem_append.2 ⟨hd, isName_of_get? hwf hf⟩)

section Order

variable (hd : ∀ n ∈ d, Path.IsName n) (hwf : (directory entries).isWellFormed = true)
include hd hwf

theorem pairwise_filesIn : (filesIn choice d.relativePath entries).Pairwise PathPrecedes := by
  obtain ⟨hnodup, hnames, -⟩ := isWellFormed_directory.1 hwf
  have hsub : ∀ n ∈ fileNames choice d.relativePath entries, Path.IsName n := by
    rw [fileNames_eq]
    intro n hn
    obtain ⟨a, ha, rfl⟩ := List.mem_map.1 hn
    exact hnames a (List.mem_filter.1 ha).1
  have hdistinct : (Text.sort (fileNames choice d.relativePath entries)).Nodup := by
    rw [(Text.sort_perm _).nodup_iff, fileNames_eq]
    exact (List.filter_sublist.map _).nodup hnodup
  refine List.Pairwise.filter _ (List.pairwise_map.2 ?_)
  have hincreasing := Text.pairwise_lt_of_nodup (Text.pairwise_sort _) hdistinct
  refine hincreasing.imp_of_mem fun {a b} ha hb hab => ?_
  have hcomponents : ∀ n ∈ Text.sort (fileNames choice d.relativePath entries),
      Path.components (pathOf d.relativePath n) = d ++ [n] := fun n hn => by
    rw [pathOf_relativePath hd]
    exact Place.components_relativePath (List.forall_mem_append.2
      ⟨hd, List.forall_mem_singleton.2 (hsub n ((Text.sort_perm _).mem_iff.1 hn))⟩)
  rw [PathPrecedes, hcomponents a ha, hcomponents b hb]
  have hab' : Place.Precedes [a] [b] := hab
  exact hab'.append (by simp) (by simp) d

/-- The files of a subdirectory lie below its name. -/
theorem components_of_mem_filesBelowEach {a : Text × List Text}
    (ha : a ∈ filesBelowEach choice d.relativePath entries) {f : Text} (hf : f ∈ a.2) :
    ∃ m p, Path.components f = d ++ a.1 :: m :: p := by
  obtain ⟨hnodup, hnames, hentries⟩ := isWellFormed_directory.1 hwf
  rw [filesBelowEach_eq] at ha
  obtain ⟨b, hb, rfl⟩ := List.mem_map.1 ha
  obtain ⟨hb, hdir⟩ := List.mem_filter.1 hb
  rw [Bool.and_eq_true] at hdir
  have hd' : ∀ n ∈ d ++ [b.1], Path.IsName n :=
    List.forall_mem_append.2 ⟨hd, List.forall_mem_singleton.2 (hnames b hb)⟩
  rw [pathOf_relativePath hd] at hf
  obtain ⟨p, rfl, hkept⟩ := (mem_filesBelow_iff hdir.1 (hentries b hb) hd').1 hf
  obtain ⟨m, p, rfl⟩ := List.exists_cons_of_ne_nil (hkept.ne_nil hdir.1)
  refine ⟨m, p, ?_⟩
  rw [components_of_keptBelow (hentries b hb) hd' hkept]
  simp

omit hd in
/-- The subdirectories come in the order of their names. -/
theorem pairwise_mergeSort_filesBelowEach :
    ((filesBelowEach choice d.relativePath entries).mergeSort nameLe).Pairwise
      fun a b => Text.Lt a.1 b.1 := by
  obtain ⟨hnodup, -, -⟩ := isWellFormed_directory.1 hwf
  have hsorted : ((filesBelowEach choice d.relativePath entries).mergeSort nameLe).Pairwise
      fun a b => nameLe a b = true :=
    List.pairwise_mergeSort (fun a b c => Text.le_trans a.1 b.1 c.1)
      (fun a b => Text.le_total a.1 b.1) _
  have hdistinct : (((filesBelowEach choice d.relativePath entries).mergeSort nameLe).map
      (·.1)).Nodup := by
    rw [((List.mergeSort_perm _ _).map _).nodup_iff, filesBelowEach_eq, List.map_map]
    exact (List.filter_sublist.map _).nodup hnodup
  exact List.pairwise_map.1 (Text.pairwise_lt_of_nodup (List.pairwise_map.2 hsorted) hdistinct)

end Order

/-- **A walk lists files in the order of their places.** -/
theorem pairwise_filesBelow {e : Entry} (hwf : e.isWellFormed = true)
    (hd : ∀ n ∈ d, Path.IsName n) :
    (e.filesBelow choice d.relativePath).Pairwise PathPrecedes := by
  induction e using Entry.induction generalizing d with
  | file bytes => exact .nil
  | link target => exact .nil
  | directory entries ih =>
    obtain ⟨hnodup, hnames, hentries⟩ := isWellFormed_directory.1 hwf
    have hmem : ∀ a, a ∈ (filesBelowEach choice d.relativePath entries).mergeSort nameLe ↔
        a ∈ filesBelowEach choice d.relativePath entries :=
      fun a => (List.mergeSort_perm _ _).mem_iff
    rw [filesBelow, List.pairwise_append, List.pairwise_flatMap]
    refine ⟨pairwise_filesIn hd hwf, ⟨fun a ha => ?_, ?_⟩, fun f hf g hg => ?_⟩
    · rw [hmem, filesBelowEach_eq] at ha
      obtain ⟨b, hb, rfl⟩ := List.mem_map.1 ha
      have hb := (List.mem_filter.1 hb).1
      rw [pathOf_relativePath hd]
      exact ih b hb (hentries b hb)
        (List.forall_mem_append.2 ⟨hd, List.forall_mem_singleton.2 (hnames b hb)⟩)
    · refine (pairwise_mergeSort_filesBelowEach hwf).imp_of_mem fun {a b} ha hb hab f hf g hg => ?_
      obtain ⟨m, p, hf⟩ := components_of_mem_filesBelowEach hd hwf ((hmem a).1 ha) hf
      obtain ⟨k, q, hg⟩ := components_of_mem_filesBelowEach hd hwf ((hmem b).1 hb) hg
      rw [PathPrecedes, hf, hg]
      have hab' : Place.Precedes (a.1 :: m :: p) (b.1 :: k :: q) := .inl hab
      exact hab'.append (by simp) (by simp) d
    · -- a file of the directory itself comes before those further down
      obtain ⟨n, rfl, hkept⟩ := (mem_filesIn_iff hd hnodup).1 hf
      obtain ⟨a, ha, hg⟩ := List.mem_flatMap.1 hg
      obtain ⟨m, p, hg⟩ := components_of_mem_filesBelowEach hd hwf ((hmem a).1 ha) hg
      rw [PathPrecedes, hg, components_of_keptBelow hwf hd hkept]
      have hfirst : Place.Precedes [n] (a.1 :: m :: p) := trivial
      exact hfirst.append (by simp) (by simp) d

/-- **A walk from the root lists the places that it keeps, in order.** -/
theorem exists_places_filesBelow {e : Entry} (he : e.isDirectory = true)
    (hwf : e.isWellFormed = true) :
    ∃ places : List Place, e.filesBelow choice [] = places.map Place.relativePath ∧
      (∀ p, p ∈ places ↔ KeptBelow choice [] e p) ∧ places.Pairwise Place.Precedes := by
  have hd : ∀ n ∈ ([] : Place), Path.IsName n := by simp
  have hmem : ∀ f, f ∈ e.filesBelow choice [] ↔
      ∃ p : Place, f = p.relativePath ∧ KeptBelow choice [] e p :=
    fun f => mem_filesBelow_iff he hwf hd
  have hcomponents : ∀ p : Place, KeptBelow choice [] e p → Path.components p.relativePath = p :=
    fun p => components_of_keptBelow hwf hd
  refine ⟨(e.filesBelow choice []).map Path.components, ?_, fun p => ?_, ?_⟩
  · rw [List.map_map]
    refine ((List.map_congr_left fun f hf => ?_).trans (List.map_id _)).symm
    obtain ⟨p, rfl, hp⟩ := (hmem f).1 hf
    rw [Function.comp_apply, hcomponents p hp, id]
  · rw [List.mem_map]
    constructor
    · rintro ⟨f, hf, rfl⟩
      obtain ⟨p, rfl, hp⟩ := (hmem f).1 hf
      rwa [hcomponents p hp]
    · exact fun hp => ⟨p.relativePath, (hmem _).2 ⟨p, rfl, hp⟩, hcomponents p hp⟩
  · exact List.pairwise_map.2 (pairwise_filesBelow hwf hd)

end Entry

/-! ## The scan -/

namespace Scan

/-- The scan of a repository selects the file at a place: it is no directory, nor a link to one; no
directory on the way is excluded by its name or ignored; the file is not ignored; and its suffix and
its size are admitted. -/
structure Selected (rules : List IgnoreRule) (options : ScanOptions) (tree : Entry) (root : Text)
    (repository : Entry) (p : Place) : Prop where
  isFile : ∃ e, repository.get? p = some e ∧ e.isDirectory = false ∧
    ∀ target, e = .link target → linksDirectory tree root p.relativePath = false
  directories : ∀ q name rest, p = q ++ name :: rest → rest ≠ [] →
    name ∉ excludedDirectories ∧ ¬ IgnoreRule.Ignored rules (Place.relativePath (q ++ [name])) true
  notIgnored : ¬ IgnoreRule.Ignored rules p.relativePath false
  suffix : Path.lowerSuffix p.relativePath ∈ options.extensions
  size : ∃ e, tree.stat (Path.append root p.relativePath) = .ok e ∧
    (e.size : Int) ≤ options.maxFileSize

/-- The rules of a scan: those of the ignore file, if there is one with some bytes, and then those
of the options. -/
def rulesOf (ignored : Option (List UInt8)) (options : ScanOptions) : List IgnoreRule :=
  IgnoreRule.ofFile (Utf8.decodeLenient (ignored.getD [])) ++
    IgnoreRule.ofPatterns options.excludePaths

variable {rules : List IgnoreRule} {options : ScanOptions} {tree repository : Entry}
  {root path : Text} {p : Place}

theorem verdict_eq_kept_iff :
    verdict tree options.maxFileSize path = .kept ↔
      ∃ e, tree.stat path = .ok e ∧ (e.size : Int) ≤ options.maxFileSize := by
  unfold verdict
  cases tree.stat path with
  | error e => simp
  | ok e =>
    by_cases h : options.maxFileSize < e.size
    · simp [h]
    · simp [h, Int.not_lt.1 h]

/-- The suffix and the size of the file at a path below the root are admitted. -/
def admits (options : ScanOptions) (tree : Entry) (root path : Text) : Bool :=
  options.extensions.contains (Path.lowerSuffix path) &&
    decide (verdict tree options.maxFileSize (Path.append root path) = .kept)

theorem admits_iff :
    admits options tree root path = true ↔ Path.lowerSuffix path ∈ options.extensions ∧
      ∃ e, tree.stat (Path.append root path) = .ok e ∧ (e.size : Int) ≤ options.maxFileSize := by
  rw [admits, Bool.and_eq_true, decide_eq_true_eq, verdict_eq_kept_iff, List.contains_iff_mem]

theorem isFile_choice_iff {links : Text → Bool} {e : Entry} :
    e.isFile (choice rules links) path = true ↔
      e.isDirectory = false ∧ ∀ target, e = .link target → links path = false := by
  cases e <;> simp [Entry.isFile, Entry.isDirectory, choice]

theorem selected_iff :
    Selected rules options tree root repository p ↔
      Entry.KeptBelow (choice rules (linksDirectory tree root)) [] repository p ∧
        admits options tree root p.relativePath = true := by
  have hignores : ∀ path isDir, IgnoreRule.ignores rules path isDir = false ↔
      ¬ IgnoreRule.Ignored rules path isDir := fun path isDir => by
    rw [← IgnoreRule.ignores_iff, Bool.not_eq_true]
  rw [admits_iff]
  constructor
  · rintro ⟨⟨e, he, hfile⟩, hdirs, hignored, hsuffix, hsize⟩
    refine ⟨⟨⟨e, he, isFile_choice_iff.2 hfile⟩, fun q name rest hp hrest => ?_, ?_⟩, hsuffix,
      hsize⟩
    · simpa [choice, hignores] using hdirs q name rest hp hrest
    · simpa [choice, hignores] using hignored
  · rintro ⟨⟨⟨e, he, hfile⟩, hdirs, hignored⟩, hsuffix, hsize⟩
    refine ⟨⟨e, he, isFile_choice_iff.1 hfile⟩, fun q name rest hp hrest => ?_, ?_, hsuffix, hsize⟩
    · simpa [choice, hignores] using hdirs q name rest hp hrest
    · simpa [choice, hignores] using hignored

/-- The files of a repository that a scan finds under some rules. -/
def listed (rules : List IgnoreRule) (options : ScanOptions) (tree : Entry) (root : Text)
    (repository : Entry) : List Text :=
  ((repository.filesBelow (choice rules (linksDirectory tree root)) []).filter
    (admits options tree root)).map (Path.append root)

/-- A scan that succeeds has found a directory and its rules. -/
theorem exists_of_files_eq_ok {env : Environment} {given : Text}
    {found : List Text × List LogRecord} (h : files env options tree given = .ok found) :
    ∃ root repository rules, env.realPath tree given = .ok root ∧ tree.stat root = .ok repository ∧
      repository.isDirectory = true ∧ ignoreFileRules tree root = .ok rules := by
  obtain ⟨root, hroot, h⟩ := exists_of_bind_eq_ok h
  obtain ⟨e, he, h⟩ := exists_of_bind_eq_ok h
  cases e with
  | none => cases h
  | some repository =>
    cases hdir : repository.isDirectory with
    | false =>
      simp only [hdir] at h
      cases h
    | true =>
      simp only [hdir] at h
      obtain ⟨rules, hrules, -⟩ := exists_of_bind_eq_ok h
      exact ⟨root, repository, rules, hroot, Entry.stat?_eq_some_iff.1 (lift_eq_ok he), hdir,
        lift_eq_ok hrules⟩

section Files

variable {env : Environment} {given : Text} {ignored : Option (List UInt8)}
  (hpath : env.realPath tree given = .ok root) (hrepo : tree.stat root = .ok repository)
  (hdir : repository.isDirectory = true)
  (hignore : tree.stat? (Path.append root ".gitignore".toList) = .ok (ignored.map .file))

include hignore in
/-- The rules of the ignore file are those of its text; without a file there are none. -/
theorem ignoreFileRules_eq :
    ignoreFileRules tree root = .ok (IgnoreRule.ofFile (Utf8.decodeLenient (ignored.getD []))) := by
  cases ignored with
  | none =>
    have hnil : IgnoreRule.ofFile (Utf8.decodeLenient []) = [] := by
      rw [Utf8.decodeLenient, Utf8.decodeLenientFrom]
      rfl
    simp only [ignoreFileRules, Entry.pathExists, hignore, Option.map_none, Option.getD_none, hnil]
    rfl
  | some bytes =>
    have hread : tree.readFile (Path.append root ".gitignore".toList) = .ok bytes := by
      unfold Entry.stat? at hignore
      split at hignore
      · next e he =>
        obtain rfl : e = .file bytes := by simpa using hignore
        rw [Entry.readFile, he]
        rfl
      · split at hignore <;> simp at hignore
    simp only [ignoreFileRules, Entry.pathExists, hignore, hread, Option.map_some]
    rfl

include hpath hrepo hdir in
/-- The files that are found, among those that the walk lists. -/
theorem files_of_rules (hrules : ignoreFileRules tree root = .ok rules) :
    ∃ log, files env options tree given =
      .ok (listed (rules ++ IgnoreRule.ofPatterns options.excludePaths) options tree root
        repository, log) := by
  have hstat : tree.stat? root = .ok (some repository) := Entry.stat?_eq_some_iff.2 hrepo
  have hadmits : admits options tree root = fun path =>
      options.extensions.contains (Path.lowerSuffix path) &&
        decide (verdict tree options.maxFileSize (Path.append root path) = .kept) := rfl
  let found := candidates (rules ++ IgnoreRule.ofPatterns options.excludePaths) options.extensions
    tree root repository
  refine ⟨found.flatMap fun file => (verdict tree options.maxFileSize file).log file, ?_⟩
  simp only [files, hpath, hstat, hrules, FileError.lift, hdir, bind,
    Except.bind, pure, Except.pure, Bool.not_true, Bool.false_eq_true, ↓reduceIte]
  simp [found, candidates, listed, hadmits, List.filter_map, List.filter_filter,
    Function.comp_def, List.flatMap_map, Bool.and_comm]

include hpath hrepo hdir hignore in
theorem files_eq :
    ∃ log, files env options tree given =
      .ok (((repository.filesBelow (choice (rulesOf ignored options) (linksDirectory tree root))
        []).filter (admits options tree root)).map (Path.append root), log) :=
  files_of_rules hpath hrepo hdir (ignoreFileRules_eq hignore)

include hpath hrepo hdir in
/-- Where no candidate is too large or unreadable, the candidates are found, and the log says
nothing. -/
theorem files_eq_of_kept (hrules : ignoreFileRules tree root = .ok rules) {found : List Text}
    (hfound : candidates (rules ++ IgnoreRule.ofPatterns options.excludePaths) options.extensions
      tree root repository = found)
    (hkept : ∀ file ∈ found, verdict tree options.maxFileSize file = .kept) :
    files env options tree given = .ok (found, []) := by
  have hstat : tree.stat? root = .ok (some repository) := Entry.stat?_eq_some_iff.2 hrepo
  have hall : (found.map fun file => (file, verdict tree options.maxFileSize file)) =
      found.map fun file => (file, .kept) :=
    List.map_congr_left fun file hfile => by rw [hkept file hfile]
  simp only [files, hpath, hstat, hrules, hfound, hall, FileError.lift, hdir, bind, Except.bind,
    pure, Except.pure, Bool.not_true, Bool.false_eq_true, ↓reduceIte]
  simp [List.filter_map, Function.comp_def, Verdict.log]

end Files

/-- **A scan finds exactly the selected files, each once, in the order of the walk.** The repository
is a directory, its entries have proper names, and its ignore file is missing or can be read. -/
theorem files_eq_selected {env : Environment} {options : ScanOptions} {tree repository : Entry}
    {given root : Text} {ignored : Option (List UInt8)} (hpath : env.realPath tree given = .ok root)
    (hrepo : tree.stat root = .ok repository) (hdir : repository.isDirectory = true)
    (hwf : repository.isWellFormed = true)
    (hignore : tree.stat? (Path.append root ".gitignore".toList) = .ok (ignored.map .file)) :
    ∃ (places : List Place) (log : List LogRecord),
      files env options tree given =
        .ok (places.map fun p => Path.append root p.relativePath, log) ∧
      (∀ p, p ∈ places ↔ Selected (rulesOf ignored options) options tree root repository p) ∧
      places.Pairwise Place.Precedes ∧
        (places.map fun p => Path.append root p.relativePath).Nodup := by
  obtain ⟨log, hfiles⟩ : ∃ log, files env options tree given = _ :=
    files_eq hpath hrepo hdir hignore
  obtain ⟨walked, hwalked, hmem, horder⟩ : ∃ places : List Place,
      repository.filesBelow (choice (rulesOf ignored options) (linksDirectory tree root)) [] = _ ∧
        _ :=
    Entry.exists_places_filesBelow hdir hwf
  -- the walked places that the suffix and the size admit
  set places := walked.filter fun p => admits options tree root p.relativePath with hplaces
  have hselected : ∀ p, p ∈ places ↔
      Selected (rulesOf ignored options) options tree root repository p := by
    intro p
    rw [hplaces, List.mem_filter, hmem, selected_iff]
  have hpairwise : places.Pairwise Place.Precedes := horder.filter _
  refine ⟨places, log, ?_, hselected, hpairwise, ?_⟩
  · rw [hfiles, hwalked, List.filter_map, List.map_map]
    rfl
  · refine List.Nodup.of_map Path.components ?_
    have hcomponents : (places.map fun p => Path.append root p.relativePath).map Path.components =
        places.map (Path.components root ++ ·) := by
      rw [List.map_map]
      refine List.map_congr_left fun p hp => ?_
      obtain ⟨e, he, -⟩ := ((hselected p).1 hp).isFile
      exact Place.components_append_relativePath (Entry.isName_of_get? hwf he) root
    rw [hcomponents]
    refine List.Nodup.map (fun _ _ => List.append_cancel_left) ?_
    refine List.Pairwise.imp (fun {p q} (h : Place.Precedes p q) heq => ?_) hpairwise
    exact Place.Precedes.irrefl q (heq ▸ h)

/-- A repository with an ignore file, a source file and two subdirectories. -/
def sampleRepository : Entry :=
  .directory [(".gitignore".toList, .file (Utf8.encode "build/\n".toList)),
    ("a.py".toList, .file []), ("src".toList, .directory [("b.py".toList, .file [])]),
    ("build".toList, .directory [("c.py".toList, .file [])])]

/-- The repository as the only entry of the root directory. -/
def sampleTree : Entry := .directory [("r".toList, sampleRepository)]

theorem files_sampleTree :
    ∃ (places : List Place) (log : List LogRecord),
      files { workingDirectory := ['/'], time := [] } {} sampleTree "/r".toList =
        .ok (places.map fun p => Path.append "/r".toList p.relativePath, log) ∧
      (∀ p, p ∈ places ↔ Selected (rulesOf (some (Utf8.encode "build/\n".toList)) {}) {} sampleTree
        "/r".toList sampleRepository p) ∧
      places.Pairwise Place.Precedes ∧
        (places.map fun p => Path.append "/r".toList p.relativePath).Nodup :=
  files_eq_selected (by cbv) (by cbv) (by decide) (by decide) (by cbv)

end Scan

end CodeIndex
