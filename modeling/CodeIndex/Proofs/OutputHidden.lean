import CodeIndex.Build
import CodeIndex.Proofs.FileTree.Resolve
import CodeIndex.Proofs.Scan
import CodeIndex.Proofs.Text.Blank
import CodeIndex.Proofs.Utf8

/-!
# The directory of the reports in a scan

A scan hides the directory of the reports by an ignore rule of its own, which comes last, so that no
other rule can bring a file back. `files_outside_output`: such a scan lists exactly the files that
it would list without that rule, except those for which the rule fits a directory on the way. The
pattern of the rule is the text of the output path. It fits the directory that the path leads to if
the path is written name by name and has no sets (`SpelledOut.covers_output`); a path such as
`./out` leads to a directory that its own text does not fit (`files_dotSlash_output`).
-/

namespace CodeIndex

/-- The path leads to something below a directory, component by component. -/
def Path.IsBelow (directory path : Text) : Prop :=
  components directory <+: components path ∧ components directory ≠ components path

instance (directory path : Text) : Decidable (Path.IsBelow directory path) :=
  inferInstanceAs (Decidable (_ ∧ _))

/-- The rule fits a directory on the way from the root of a repository to a file. -/
def IgnoreRule.Covers (r : IgnoreRule) (root file : Text) : Prop :=
  ∃ d : Place, d ≠ [] ∧ r.fits d.relativePath true = true ∧
    Path.components root ++ d <+: Path.components file ∧
      Path.components root ++ d ≠ Path.components file

theorem Entry.isWellFormed_of_stat {tree e : Entry} {path : Text} (hwf : tree.isWellFormed = true)
    (h : tree.stat path = .ok e) : e.isWellFormed = true := by
  obtain ⟨target, -, h⟩ := exists_of_bind_eq_ok h
  cases target with
  | missing d name => cases h
  | entry q =>
    cases hq : tree.get? q with
    | none => simp [hq, throw, throwThe, MonadExceptOf.throw] at h
    | some f =>
      simp only [hq] at h
      cases h
      exact isWellFormed_of_get? hwf hq

theorem Entry.KeptBelow.isName {choice : Choice} {e : Entry} {p : Place}
    (h : KeptBelow choice [] e p) (hwf : e.isWellFormed = true) : ∀ n ∈ p, Path.IsName n := by
  obtain ⟨f, hf, -⟩ := h.isFile
  exact isName_of_get? hwf hf

/-! ## One rule more -/

namespace Scan

open Entry (KeptBelow)

variable {rules : List IgnoreRule} {r : IgnoreRule} {links : Text → Bool} {options : ScanOptions}
  {tree repository : Entry} {root : Text} {p : Place}

/-- **A last rule about directories leaves out what lies below the directories that it fits.** -/
theorem keptBelow_concat_iff (hnegate : r.negate = false) (hdirectory : r.directoryOnly = true) :
    KeptBelow (choice (rules ++ [r]) links) [] repository p ↔
      KeptBelow (choice rules links) [] repository p ∧
        ∀ d rest : Place, p = d ++ rest → d ≠ [] → rest ≠ [] →
          r.fits d.relativePath true = false := by
  have hfile (path : Text) : r.fits path false = false := by simp [IgnoreRule.fits, hdirectory]
  constructor
  · rintro ⟨hisFile, hdirs, hkeeps⟩
    refine ⟨⟨hisFile, fun q name rest hp hrest => ?_, ?_⟩, fun d rest hp hd hrest => ?_⟩
    · have hkept := hdirs q name rest hp hrest
      simp only [choice, IgnoreRule.ignores_concat hnegate, Bool.not_or, Bool.and_eq_true]
        at hkept ⊢
      exact ⟨hkept.1, hkept.2.2⟩
    · simpa [choice, IgnoreRule.ignores_concat hnegate, hfile] using hkeeps
    · obtain ⟨q, name, rfl⟩ := (List.eq_nil_or_concat' d).resolve_left hd
      have hkept := hdirs q name rest (by simpa using hp) hrest
      simp only [choice, IgnoreRule.ignores_concat hnegate, Bool.not_or, Bool.and_eq_true,
        Bool.not_eq_true', List.nil_append] at hkept
      exact hkept.2.1
  · rintro ⟨⟨hisFile, hdirs, hkeeps⟩, hfits⟩
    refine ⟨hisFile, fun q name rest hp hrest => ?_, ?_⟩
    · have hkept := hdirs q name rest hp hrest
      have hother := hfits (q ++ [name]) rest (by simpa using hp) (by simp) hrest
      simp only [choice, IgnoreRule.ignores_concat hnegate, Bool.not_or, Bool.and_eq_true,
        List.nil_append, hother, Bool.not_false, true_and] at hkept ⊢
      exact hkept
    · simpa [choice, IgnoreRule.ignores_concat hnegate, hfile] using hkeeps

theorem mem_listed_iff (hdir : repository.isDirectory = true) (hwf : repository.isWellFormed = true)
    {f : Text} :
    f ∈ listed rules options tree root repository ↔
      ∃ p : Place, f = Path.append root p.relativePath ∧
        KeptBelow (choice rules (linksDirectory tree root)) [] repository p ∧
          admits options tree root p.relativePath = true := by
  have hmem (path : Text) :
      path ∈ repository.filesBelow (choice rules (linksDirectory tree root)) [] ↔
        ∃ p : Place, path = p.relativePath ∧
          KeptBelow (choice rules (linksDirectory tree root)) [] repository p :=
    Entry.mem_filesBelow_iff hdir hwf (d := []) (by simp)
  simp only [listed, List.mem_map, List.mem_filter, hmem]
  constructor
  · rintro ⟨_, ⟨⟨p, rfl, hkept⟩, hadmits⟩, rfl⟩
    exact ⟨p, rfl, hkept, hadmits⟩
  · rintro ⟨p, rfl, hkept, hadmits⟩
    exact ⟨p.relativePath, ⟨⟨p, rfl, hkept⟩, hadmits⟩, rfl⟩

/-- The directories on the way to a file below the root, by their places. -/
theorem covers_append_iff (hp : ∀ n ∈ p, Path.IsName n) :
    r.Covers root (Path.append root p.relativePath) ↔
      ∃ d rest : Place, p = d ++ rest ∧ d ≠ [] ∧ rest ≠ [] ∧ r.fits d.relativePath true = true := by
  rw [IgnoreRule.Covers, Place.components_append_relativePath hp]
  constructor
  · rintro ⟨d, hd, hfits, habove, hne⟩
    obtain ⟨rest, rfl⟩ := (List.prefix_append_right_inj _).1 habove
    refine ⟨d, rest, rfl, hd, ?_, hfits⟩
    rintro rfl
    exact hne (by rw [List.append_nil])
  · rintro ⟨d, rest, rfl, hd, hrest, hfits⟩
    refine ⟨d, hd, hfits, (List.prefix_append_right_inj _).2 (List.prefix_append d rest), ?_⟩
    simpa using hrest

/-- **With one rule more, the same files are listed except those that it covers.** -/
theorem mem_listed_concat_iff (hdir : repository.isDirectory = true)
    (hwf : repository.isWellFormed = true) (hnegate : r.negate = false)
    (hdirectory : r.directoryOnly = true) {f : Text} :
    f ∈ listed (rules ++ [r]) options tree root repository ↔
      f ∈ listed rules options tree root repository ∧ ¬ r.Covers root f := by
  simp only [mem_listed_iff hdir hwf, keptBelow_concat_iff hnegate hdirectory]
  constructor
  · rintro ⟨p, rfl, ⟨hkept, hfits⟩, hadmits⟩
    refine ⟨⟨p, rfl, hkept, hadmits⟩, ?_⟩
    rw [covers_append_iff (hkept.isName hwf)]
    rintro ⟨d, rest, hp, hd, hrest, hfit⟩
    simp [hfits d rest hp hd hrest] at hfit
  · rintro ⟨⟨p, rfl, hkept, hadmits⟩, hcovers⟩
    rw [covers_append_iff (hkept.isName hwf)] at hcovers
    refine ⟨p, rfl, ⟨hkept, fun d rest hp hd hrest => ?_⟩, hadmits⟩
    rw [← Bool.not_eq_true]
    exact fun hfit => hcovers ⟨d, rest, hp, hd, hrest, hfit⟩

end Scan

/-! ## The rule of the output path -/

namespace Settings

variable {s : Settings}

/-- The rule that hides the directory of the reports: directories that the output path fits, slashes
at its ends aside. -/
def outputRule (s : Settings) : IgnoreRule where
  pattern := Text.strip (· = '/') s.outputPath
  directoryOnly := true
  anchored := true
  negate := false
  hasSlash := '/' ∈ Text.strip (· = '/') s.outputPath

theorem ofLine?_slashes (t : Text) : IgnoreRule.ofLine? ('/' :: t ++ ['/']) = some
    { pattern := t, directoryOnly := true, anchored := true, negate := false,
      hasSlash := '/' ∈ t } := by
  have htrim : Text.trim ('/' :: t ++ ['/']) = '/' :: t ++ ['/'] := by
    rw [Text.trim_eq, List.cons_append, Text.trimLeft_cons (by decide), ← List.cons_append,
      Text.trimRight_append_singleton (by decide)]
  have hlast : Text.endsWithChar '/' ('/' :: t ++ ['/']) = true := by
    simp only [Text.endsWithChar, List.getLast?_concat]
    rfl
  have hfirst : Text.startsWith ['/'] ('/' :: t) = true := rfl
  have hdropLast : List.dropLast ('/' :: t ++ ['/']) = '/' :: t := List.dropLast_concat
  have hline :
      IgnoreRule.ofLine? ('/' :: t ++ ['/']) = IgnoreRule.ofPattern? ('/' :: t ++ ['/']) false :=
    rfl
  rw [hline, IgnoreRule.ofPattern?, htrim]
  rw [List.cons_append] at hlast hdropLast ⊢
  simp only [hlast, hdropLast, hfirst, if_true, List.tail_cons]

/-- The rule comes after those of the configuration. -/
theorem ofPatterns_scanExcludes (h : s.writesToRoot = false) :
    IgnoreRule.ofPatterns s.scanExcludes =
      IgnoreRule.ofPatterns s.excludePaths ++ [s.outputRule] := by
  rw [scanExcludes, if_neg (by simp [h]), IgnoreRule.ofPatterns, List.filterMap_append]
  simp only [List.filterMap_cons, ofLine?_slashes, List.filterMap_nil]
  rfl

/-- The output path is written name by name, slashes at its end aside, and has no sets of
characters. -/
structure SpelledOut (s : Settings) : Prop where
  names : Place.relativePath (Path.components s.outputPath) = Text.strip (· = '/') s.outputPath
  direct : Path.IsDirect s.outputPath
  noSets : '[' ∉ s.outputPath

/-- **The rule fits the directory of the reports, if the output path is spelled out.** -/
theorem SpelledOut.covers_output (h : s.SpelledOut) (houtput : s.writesToRoot = false)
    (hrelative : Path.isAbsolute s.outputPath = false)
    (hdown : Path.IsBelow s.root s.outputDirectory)
    {file : Text} (hfile : Path.IsBelow s.outputDirectory file) :
    s.outputRule.Covers s.root file := by
  let d : Place := Path.components s.outputPath
  have hdirectory : Path.components s.outputDirectory = Path.components s.root ++ d := by
    rw [outputDirectory, if_neg (by simp [houtput]), Path.components_append hrelative]
  have hne : d ≠ [] := by
    intro hnil
    rw [hnil, List.append_nil] at hdirectory
    exact hdown.2 hdirectory.symm
  have hpattern : s.outputRule.pattern = d.relativePath := h.names.symm
  have hnonempty : d.relativePath ≠ [] := by
    intro hnil
    have hcomponents : Path.components d.relativePath = d :=
      Place.components_relativePath h.direct.isName
    rw [hnil] at hcomponents
    exact hne hcomponents.symm
  have hnoSets : '[' ∉ d.relativePath := by
    rw [← hpattern]
    exact fun hmem => h.noSets (Text.strip_subset _ _ hmem)
  refine ⟨d, hne, ?_, ?_⟩
  · rw [IgnoreRule.fits, hpattern, Glob.fits_self hnoSets]
    simp [outputRule, hnonempty]
  · rw [← hdirectory]
    exact hfile

end Settings

/-! ## The scan -/

namespace Scan

variable {env : Environment} {s : Settings} {extensions : List Text} {tree : Entry}
  {given root : Text} {paths : List Text} {log : List LogRecord}

theorem mem_listed_scanExcludes_iff {rules : List IgnoreRule} {options : ScanOptions}
    {repository : Entry} {f : Text} (houtput : s.writesToRoot = false)
    (hdir : repository.isDirectory = true)
    (hwf : repository.isWellFormed = true) :
    f ∈ listed (rules ++ IgnoreRule.ofPatterns s.scanExcludes) options tree root repository ↔
      f ∈ listed (rules ++ IgnoreRule.ofPatterns s.excludePaths) options tree root repository ∧
        ¬ s.outputRule.Covers root f := by
  rw [Settings.ofPatterns_scanExcludes houtput, ← List.append_assoc]
  exact mem_listed_concat_iff hdir hwf rfl rfl

/-- **A scan lists the files that it would list without the rule of the output path, except those
for which the rule fits a directory on the way.** If the output path is spelled out, no file below
the directory of the reports is listed, whatever the ignore file and the configuration say. -/
theorem files_outside_output (hwf : tree.isWellFormed = true) (houtput : s.writesToRoot = false)
    (hroot : env.realPath tree given = .ok root)
    (h : files env (ProjectIndex.scanOptions s extensions) tree given = .ok (paths, log)) :
    (∃ unhidden log',
      files env { ProjectIndex.scanOptions s extensions with excludePaths := s.excludePaths }
          tree given = .ok (unhidden, log') ∧
        ∀ f, f ∈ paths ↔ f ∈ unhidden ∧ ¬ s.outputRule.Covers root f) ∧
      (s.root = root → Path.isAbsolute s.outputPath = false → Path.IsBelow root s.outputDirectory →
        s.SpelledOut → ∀ f ∈ paths, ¬ Path.IsBelow s.outputDirectory f) := by
  obtain ⟨root', repository, rules, hroot', hstat, hdir, hrules⟩ := exists_of_files_eq_ok h
  obtain rfl : root' = root := Except.ok.inj (hroot'.symm.trans hroot)
  have hrepository := Entry.isWellFormed_of_stat hwf hstat
  obtain ⟨_, hlisted⟩ :
      ∃ log, files env (ProjectIndex.scanOptions s extensions) tree given = .ok (_, log) :=
    files_of_rules hroot hstat hdir hrules
  obtain ⟨log', hunhidden⟩ : ∃ log, files env
      { ProjectIndex.scanOptions s extensions with excludePaths := s.excludePaths } tree given =
        .ok (_, log) :=
    files_of_rules hroot hstat hdir hrules
  obtain rfl := (Prod.mk.inj (Except.ok.inj (h.symm.trans hlisted))).1
  have hiff (f : Text) :
      f ∈ listed (rules ++ IgnoreRule.ofPatterns s.scanExcludes)
        (ProjectIndex.scanOptions s extensions) tree root' repository ↔ _ :=
    mem_listed_scanExcludes_iff houtput hdir hrepository
  refine ⟨⟨_, log', hunhidden, hiff⟩, ?_⟩
  rintro rfl hrelative hdown hspelled f hf hbelow
  exact ((hiff f).1 hf).2 (hspelled.covers_output houtput hrelative hdown hbelow)

/-! ### An output path that is spelled out, and one that is not -/

/-- An ignore file that brings back the directory `out` and all sources. -/
def outputIgnoreFile : Text := "!out/\n!*.py\n".toList

/-- A repository with two sources, one of them in the directory `out`. -/
def outputRepository : Entry :=
  .directory [(".gitignore".toList, .file (Utf8.encode outputIgnoreFile)),
    ("a.py".toList, .file []), ("out".toList, .directory [("stale.py".toList, .file [])])]

/-- The repository as the only entry of the root directory. -/
def outputTree : Entry := .directory [("r".toList, outputRepository)]

def outputEnvironment : Environment where
  workingDirectory := ['/']
  time := []

/-- Settings with a directory for the reports, and an exclude that brings the directory `out`
back. -/
def outputSettings (outputPath : Text) : Settings where
  root := "/r".toList
  outputPath := outputPath
  excludePaths := ["!/out/".toList]

/-- The rules of a scan with such settings. -/
def outputRules (outputPath : Text) : List IgnoreRule :=
  IgnoreRule.ofFile outputIgnoreFile ++
    IgnoreRule.ofPatterns (outputSettings outputPath).scanExcludes

theorem ignoreFileRules_outputTree :
    ignoreFileRules outputTree "/r".toList = .ok (IgnoreRule.ofFile outputIgnoreFile) := by
  have hignore : outputTree.stat? (Path.append "/r".toList ".gitignore".toList) =
      .ok ((some (Utf8.encode outputIgnoreFile)).map .file) := by cbv
  simpa [Utf8.decodeLenient_encode] using ignoreFileRules_eq hignore

theorem realPath_outputTree :
    outputEnvironment.realPath outputTree "/r".toList = .ok "/r".toList := by cbv

theorem stat_outputTree : outputTree.stat "/r".toList = .ok outputRepository := by cbv

/-- No source is too large. -/
theorem verdict_outputTree {outputPath path : Text}
    (h : path ∈ ["/r/a.py".toList, "/r/out/stale.py".toList]) :
    verdict outputTree (ProjectIndex.scanOptions (outputSettings outputPath)
      [".py".toList]).maxFileSize path = .kept := by
  have hsize : (0 : Int) ≤ (ProjectIndex.scanOptions (outputSettings outputPath)
      [".py".toList]).maxFileSize := by
    change (0 : Int) ≤ defaultMaxFileSize
    decide
  have hstat : outputTree.stat path = .ok (.file []) := by
    simp only [List.mem_cons, List.not_mem_nil, or_false] at h
    rcases h with rfl | rfl <;> cbv
  exact verdict_eq_kept_iff.2 ⟨_, hstat, hsize⟩

/-- A walk finds the source in the directory where it enters it. -/
theorem filesBelow_outputRepository (choice : Entry.Choice) :
    outputRepository.filesBelow choice [] =
      [".gitignore".toList, "a.py".toList].filter choice.keepsFile ++
        if choice.keepsDirectory "out".toList "out".toList then
          ["out/stale.py".toList].filter choice.keepsFile
        else [] := by
  have hsort : [".gitignore".toList, "a.py".toList].mergeSort Text.le =
      [".gitignore".toList, "a.py".toList] := List.mergeSort_of_pairwise (by decide)
  have hfiles : [".gitignore".toList, "a.py".toList].map (Entry.pathOf []) =
      [".gitignore".toList, "a.py".toList] := rfl
  have hdirectory : Entry.pathOf [] "out".toList = "out".toList := rfl
  simp only [outputRepository, Entry.filesBelow, Entry.filesIn, Entry.fileNames,
    Entry.filesBelowEach, Entry.isDirectory, Text.sort, List.filterMap_cons, List.filterMap_nil,
    hsort, hfiles, hdirectory, List.mergeSort_singleton, List.mergeSort_nil, Bool.false_and,
    Bool.true_and, Bool.false_eq_true, if_false, List.flatMap_nil, List.append_nil]
  split
  · rw [List.mergeSort_singleton, List.flatMap_singleton]
    rfl
  · rw [List.mergeSort_nil, List.flatMap_nil]

theorem files_spelledOut : files outputEnvironment
    (ProjectIndex.scanOptions (outputSettings "out/".toList) [".py".toList]) outputTree
      "/r".toList = .ok (["/r/a.py".toList], []) := by
  have hfound : candidates (outputRules "out/".toList) [".py".toList] outputTree "/r".toList
      outputRepository = ["/r/a.py".toList] := by
    rw [candidates, filesBelow_outputRepository]
    decide +kernel
  exact files_eq_of_kept realPath_outputTree stat_outputTree rfl ignoreFileRules_outputTree hfound
    fun path hpath => verdict_outputTree (List.mem_cons.2 (.inl (List.mem_singleton.1 hpath)))

theorem files_outside_output_spelledOut :
    outputTree.isWellFormed = true ∧ (outputSettings "out/".toList).SpelledOut ∧
      files outputEnvironment
        (ProjectIndex.scanOptions (outputSettings "out/".toList) [".py".toList]) outputTree
        "/r".toList = .ok (["/r/a.py".toList], []) ∧
      (∃ unhidden log', files outputEnvironment
          { ProjectIndex.scanOptions (outputSettings "out/".toList) [".py".toList] with
            excludePaths := ["!/out/".toList] } outputTree "/r".toList = .ok (unhidden, log') ∧
        ∀ f, f ∈ ["/r/a.py".toList] ↔
          f ∈ unhidden ∧ ¬ (outputSettings "out/".toList).outputRule.Covers "/r".toList f) ∧
      ∀ f ∈ ["/r/a.py".toList],
        ¬ Path.IsBelow (outputSettings "out/".toList).outputDirectory f := by
  have hspelled : (outputSettings "out/".toList).SpelledOut :=
    ⟨by decide, by unfold Path.IsDirect Place.IsProper; decide, by decide⟩
  have hwf : outputTree.isWellFormed = true := by decide
  obtain ⟨hunhidden, hbelow⟩ := files_outside_output hwf rfl realPath_outputTree files_spelledOut
  exact ⟨hwf, hspelled, files_spelledOut, hunhidden, hbelow rfl (by decide) (by decide) hspelled⟩

/-- The text of an output path that starts with a dot does not fit the directory that it leads
to. -/
theorem files_dotSlash_output :
    let s := outputSettings "./out".toList
    s.writesToRoot = false ∧ Path.isAbsolute s.outputPath = false ∧
      Path.IsBelow s.root s.outputDirectory ∧
      files outputEnvironment (ProjectIndex.scanOptions s [".py".toList]) outputTree "/r".toList =
        .ok (["/r/a.py".toList, "/r/out/stale.py".toList], []) ∧
      Path.IsBelow s.outputDirectory "/r/out/stale.py".toList := by
  have hfound : candidates (outputRules "./out".toList) [".py".toList] outputTree "/r".toList
      outputRepository = ["/r/a.py".toList, "/r/out/stale.py".toList] := by
    rw [candidates, filesBelow_outputRepository]
    decide +kernel
  exact ⟨by decide, by decide, by decide, files_eq_of_kept realPath_outputTree stat_outputTree rfl
    ignoreFileRules_outputTree hfound fun path hpath => verdict_outputTree hpath, by decide⟩

end Scan

end CodeIndex
