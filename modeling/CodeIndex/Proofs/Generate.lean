import CodeIndex.Generate
import CodeIndex.Proofs.Build
import CodeIndex.Proofs.Config.Sections
import CodeIndex.Proofs.Rescan
import CodeIndex.Proofs.Utf8

/-!
# Running twice is running once

A run writes into the tree that the next run reads. `run_idempotent`: in a tree without links, and
with reports that go to the root of the repository or to a directory of their own below it, a second
run sees the same settings and the same sources, builds the same index, and finds its reports
written already. So it leaves the tree as it is and has the same result and the same log.

* What a run writes: `writeReports_runs` says which places may have changed and what is there
  afterwards (`Written`); `runs_writeReports_self` is the second run.
* What a run reads: none of these places (`Spares`, `prepare_congr`).
-/

namespace CodeIndex

open Entry (Grown IsRepository)

/-! ## The settings -/

namespace Settings

variable {files dirs : Place → Prop} {parse : Yaml.Parser} {tree tree' : Entry} {r : Place}
  {s s' : Settings}

theorem isProper_settingsFileName : Path.IsProper settingsFileName := by decide

theorem filePath_of_isRepository (hplain : tree.isPlain = true) (hr : IsRepository tree r) :
    filePath tree r.path = .ok (Place.path (r ++ [settingsFileName])) := by
  have hdir : tree.pathIsDirectory r.path = .ok true :=
    (Entry.pathIsDirectory_eq_true_iff hplain hr.proper.isDirect_path).2
      ⟨hr.usable, by rw [hr.components_path, hr.directory]⟩
  have hnull : (Place.path (r ++ [settingsFileName])).any (· = '\x00') = false :=
    Place.any_path_append hr.usable.noNull (by decide)
  rw [filePath, hdir, Place.append_name hr.proper.isName isProper_settingsFileName.1]
  simp only [Entry.resolve_path hplain (hr.proper.concat isProper_settingsFileName) hnull]
  rfl

theorem resolve_parent (hplain : tree.isPlain = true) (hr : IsRepository tree r) :
    tree.resolve (Path.parent (Place.path (r ++ [settingsFileName]))) = .ok r.path := by
  have hnames := (hr.proper.concat isProper_settingsFileName).isName
  rw [Path.parent, Place.ofComponents_path hnames, Place.components_path hnames,
    List.dropLast_concat, Entry.resolve_path hplain hr.proper hr.usable.noNull]

/-- **The settings of a tree that has grown are the same**, if their file was not written. -/
theorem load_congr (parse : Yaml.Parser) (hplain : tree.isPlain = true)
    (hgrown : Grown files dirs tree tree') (hr : IsRepository tree r)
    (hfiles : ¬ files (r ++ [settingsFileName])) (hdirs : ¬ dirs (r ++ [settingsFileName])) :
    load parse tree' r.path = load parse tree r.path := by
  have hplain' := hgrown.plain hplain
  have hway := hr.sameWay_name hgrown isProper_settingsFileName hfiles hdirs
  simp only [load, filePath_of_isRepository hplain hr,
    filePath_of_isRepository hplain' (hr.grown hgrown), resolve_parent hplain hr,
    resolve_parent hplain' (hr.grown hgrown), bind, Except.bind,
    Entry.pathExists_congr hplain hplain' hway, Entry.readFile_congr hplain hplain' hway]

/-! ### The root of the settings -/

theorem root_of_override {o : Overrides} (h : s.override o = .ok s') : s'.root = s.root := by
  unfold override at h
  split at h
  · obtain ⟨format, -, h⟩ := exists_of_bind_eq_ok h
    cases h
    rfl
  · cases h
    rfl

theorem root_of_withOutput {output : Value} (h : s.withOutput output = .ok s') :
    s'.root = s.root := by
  obtain ⟨path, format, rfl⟩ := exists_of_withOutput h
  rfl

theorem root_of_withScan {scan : Value} (h : s.withScan scan = .ok s') : s'.root = s.root := by
  obtain ⟨excludePaths, maxFileSize, rfl, -⟩ := exists_of_withScan h
  rfl

theorem root_of_ofValue {root : Text} {document : Value} (h : ofValue root document = .ok s) :
    s.root = root := by
  simp only [ofValue] at h
  split at h
  · cases h
    rfl
  · split at h
    · obtain ⟨s₁, houtput, h⟩ := exists_of_bind_eq_ok h
      exact (root_of_withScan h).trans (root_of_withOutput houtput)
    · cases h

theorem root_of_load (hplain : tree.isPlain = true) (hr : IsRepository tree r)
    (h : load parse tree r.path = .ok s) : s.root = r.path := by
  obtain ⟨file, hfile, h⟩ := exists_of_bind_eq_ok h
  obtain rfl := Except.ok.inj ((filePath_of_isRepository hplain hr).symm.trans hfile)
  obtain ⟨root, hroot, h⟩ := exists_of_bind_eq_ok h
  rw [resolve_parent hplain hr] at hroot
  obtain rfl : r.path = root := Except.ok.inj hroot
  obtain ⟨found, -, h⟩ := exists_of_bind_eq_ok h
  cases found with
  | false =>
    cases h
    rfl
  | true =>
    obtain ⟨bytes, -, h⟩ := exists_of_bind_eq_ok h
    split at h
    · cases h
    · obtain ⟨document, -, h⟩ := exists_of_bind_eq_ok h
      exact root_of_ofValue h

end Settings

/-! ## What a run reads -/

namespace Generate

variable {files dirs : Place → Prop} {env : Environment} {overrides : Overrides}
  {tree tree' : Entry} {root : Text} {r : Place} {s : Settings} {p : ProjectIndex.Progress}

/-- The settings are those that belong to the real path of the root, which leads to an entry. -/
theorem exists_of_settings_eq_ok (h : settings env overrides tree root = .ok s) :
    ∃ path s₀, env.realPath tree root = .ok path ∧ tree.pathExists path = .ok true ∧
      Settings.load env.parse tree path = .ok s₀ ∧ s₀.override overrides = .ok s := by
  obtain ⟨path, hpath, h⟩ := exists_of_bind_eq_ok h
  obtain ⟨found, hfound, h⟩ := exists_of_bind_eq_ok h
  cases found with
  | false => cases h
  | true =>
    obtain ⟨s₀, hload, h⟩ := exists_of_bind_eq_ok h
    split at h
    · next s' hs =>
      cases h
      exact ⟨path, s₀, hpath, lift_eq_ok hfound, hload, hs⟩
    · cases h

/-- A scan gets as far as a list only in a directory. -/
theorem pathIsDirectory_of_files_eq_ok {options : ScanOptions} {found : List Text × List LogRecord}
    (h : Scan.files env options tree root = .ok found) :
    ∃ path, env.realPath tree root = .ok path ∧ tree.pathIsDirectory path = .ok true := by
  obtain ⟨path, repository, -, hpath, hrepository, hdir, -⟩ := Scan.exists_of_files_eq_ok h
  refine ⟨path, hpath, ?_⟩
  simp only [Entry.pathIsDirectory, Entry.stat?, hrepository]
  simp [Functor.map, Except.map, hdir]

/-- A run gets as far as an index only in a repository, whose root is the one of its settings. -/
theorem exists_repository_of_prepare (hplain : tree.isPlain = true)
    (h : prepare env overrides tree root = .ok (s, p)) :
    ∃ r, IsRepository tree r ∧ env.realPath tree root = .ok r.path ∧ s.root = r.path := by
  obtain ⟨s', hsettings, h⟩ := exists_of_bind_eq_ok h
  obtain ⟨path, hpath, h⟩ := exists_of_bind_eq_ok h
  obtain ⟨p', hbuild, h⟩ := exists_of_bind_eq_ok h
  cases h
  obtain ⟨path', s₀, hpath', hexists, hload, hoverride⟩ := exists_of_settings_eq_ok hsettings
  obtain rfl : path' = path := Except.ok.inj (hpath'.symm.trans hpath)
  obtain ⟨r, rfl, hproper⟩ := Environment.exists_place_of_realPath hpath
  have hdirect := hproper.isDirect_path
  obtain ⟨husable, -⟩ := (Entry.pathExists_eq_true_iff hplain hdirect).1 hexists
  have hreal : env.realPath tree r.path = .ok r.path := env.realPath_path hplain hproper husable
  obtain ⟨path', hpath', hbuild⟩ := exists_of_bind_eq_ok hbuild
  obtain rfl : path' = r.path := Except.ok.inj (hpath'.symm.trans hreal)
  obtain ⟨found, hscan, -⟩ := exists_of_bind_eq_ok hbuild
  obtain ⟨path', hpath', hdir⟩ := pathIsDirectory_of_files_eq_ok hscan
  obtain rfl : path' = r.path := Except.ok.inj (hpath'.symm.trans hreal)
  have hface := ((Entry.pathIsDirectory_eq_true_iff hplain hdirect).1 hdir).2
  rw [Place.components_path hproper.isName] at hface
  have hr : IsRepository tree r := ⟨hproper, hface, husable⟩
  exact ⟨r, hr, hpath,
    (Settings.root_of_override hoverride).trans (Settings.root_of_load hplain hr hload)⟩

/-- **A run on a tree that has grown sees the same settings and builds the same index.** -/
theorem prepare_congr (hplain : tree.isPlain = true) (hgrown : Grown files dirs tree tree')
    (hr : IsRepository tree r) (hroot : env.realPath tree root = .ok r.path)
    (hspares : Scan.Spares files dirs r (Extractor.allExtensions Extractor.all))
    (hfiles : ¬ files (r ++ [settingsFileName])) (hdirs : ¬ dirs (r ++ [settingsFileName])) :
    prepare env overrides tree' root = prepare env overrides tree root := by
  have hplain' := hgrown.plain hplain
  have hroot' : env.realPath tree' root = .ok r.path :=
    (env.realPath_congr hplain hplain' root).trans hroot
  have hexists := Entry.pathExists_congr hplain hplain' (hr.sameWay hgrown)
  have hload := Settings.load_congr env.parse hplain hgrown hr hfiles hdirs
  have hsettings : settings env overrides tree' root = settings env overrides tree root := by
    simp only [settings, hroot, hroot', bind, Except.bind, hexists, hload]
  simp only [prepare, hsettings, hroot, hroot', bind, Except.bind,
    ProjectIndex.build_congr hplain hgrown hr hspares]

end Generate

/-! ## The directory of the reports -/

namespace Settings

open Scan (ignoreFileName)

variable {s : Settings} {r : Place}

/-- The reports go to the root of the repository, or to a directory below it that is written name by
name and is neither the file of the settings nor the ignore file, nor below one of them. -/
def HasOwnOutput (s : Settings) : Prop :=
  s.outputPath = [] ∨ s.outputPath = ['.'] ∨ ∀ name ∈ Text.splitChar '/' s.outputPath,
    name ∉ [[], ['.'], ['.', '.'], settingsFileName, ignoreFileName]

instance (s : Settings) : Decidable s.HasOwnOutput :=
  inferInstanceAs (Decidable (s.outputPath = [] ∨ s.outputPath = ['.'] ∨ _))

/-- The names that lead from the root of the repository to the directory of the reports. -/
structure LeadsToOutput (s : Settings) (r below : Place) : Prop where
  path : s.outputDirectory = Place.path (r ++ below)
  proper : below.IsProper
  own : settingsFileName ∉ below ∧ ignoreFileName ∉ below

theorem exists_leadsToOutput (hr : r.IsProper) (hroot : s.root = r.path) (h : s.HasOwnOutput) :
    ∃ below, LeadsToOutput s r below := by
  cases hwrites : s.writesToRoot with
  | true =>
    refine ⟨[], ?_, by simp [Place.IsProper], by simp⟩
    rw [outputDirectory, if_pos hwrites, hroot, List.append_nil]
  | false =>
    have hnames : ∀ name ∈ Text.splitChar '/' s.outputPath,
        name ∉ [[], ['.'], ['.', '.'], settingsFileName, ignoreFileName] := by
      simp only [writesToRoot, Bool.or_eq_false_iff, decide_eq_false_iff_not] at hwrites
      exact (h.resolve_left hwrites.1).resolve_left hwrites.2
    simp only [List.mem_cons, List.not_mem_nil, or_false, not_or] at hnames
    have hcomponents : Path.components s.outputPath = Text.splitChar '/' s.outputPath := by
      refine List.filter_eq_self.2 fun n hn => ?_
      simp [(hnames n hn).1, (hnames n hn).2.1]
    have hrelative : Path.isAbsolute s.outputPath = false := by
      cases hpath : s.outputPath with
      | nil => rfl
      | cons c t =>
        have hc : c ≠ '/' := by
          rintro rfl
          have hsplit : Text.splitChar '/' ('/' :: t) = [] :: Text.splitChar '/' t := rfl
          exact (hnames [] (by rw [hpath, hsplit]; simp)).1 rfl
        simp [Path.isAbsolute, Path.anchor, hc]
    have hproper : Place.IsProper (Path.components s.outputPath) := fun n hn =>
      ⟨Path.isName_of_mem_components hn, (hnames n (hcomponents ▸ hn)).2.2.1⟩
    refine ⟨Path.components s.outputPath, ?_, hproper, fun hn => ?_, fun hn => ?_⟩
    · rw [outputDirectory, if_neg (by simp [hwrites]), Path.append, if_neg (by simp [hrelative]),
        hroot, Place.ofComponents_path hr.isName, Place.components_path hr.isName]
    · exact (hnames _ (hcomponents ▸ hn)).2.2.2.1 rfl
    · exact (hnames _ (hcomponents ▸ hn)).2.2.2.2 rfl

end Settings

/-! ## What a run writes -/

namespace Generate

open Edit (Runs)
open Scan (ignoreFileName isProper_ignoreFileName)

variable {tree tree' : Entry} {d : Place} {s : Settings} {p : ProjectIndex}

theorem writeReport_runs_iff {path : Text} {report : Except Failure Text} {u : Unit} :
    Runs (writeReport path report) tree u tree' ↔
      ∃ text, report = .ok text ∧ Runs (writeText path text) tree u tree' := by
  cases report with
  | ok text => simp [writeReport, Edit.runs_lift]
  | error e => simp [writeReport, Edit.not_runs_throw]

/-- A report is in its file. -/
structure IsWritten (a : Text × Except Failure Text) (tree : Entry) : Prop where
  usable : Path.Usable a.1
  face : ∃ text, a.2 = .ok text ∧
    tree.faceAt (Path.components a.1) = some (.file (Utf8.encode text))

section Reports

variable {texts : List (Text × Except Failure Text)}
  (htexts : ∀ a ∈ texts, ∃ name, a.1 = Place.path (d ++ [name]) ∧ Place.IsProper (d ++ [name]))
include htexts

/-- **Reports that are written to different files are all there afterwards; nothing else has
changed.** -/
theorem forM_writeReport_runs (hplain : tree.isPlain = true) (hnodup : (texts.map (·.1)).Nodup)
    {u : PUnit} (h : Runs (texts.forM fun (path, text) => writeReport path text) tree u tree') :
    Grown (fun q => ∃ a ∈ texts, q = Path.components a.1) (fun _ => False) tree tree' ∧
      ∀ a ∈ texts, IsWritten a tree' := by
  induction texts generalizing tree with
  | nil =>
    obtain ⟨-, rfl⟩ := Edit.runs_pure.1 h
    exact ⟨.refl _, by simp⟩
  | cons a texts ih =>
    obtain ⟨⟨name, hpath, hproper⟩, htexts⟩ := List.forall_mem_cons.1 htexts
    obtain ⟨hnew, hnodup⟩ := List.nodup_cons.1 (List.map_cons .. ▸ hnodup)
    obtain ⟨v, mid, hfirst, hothers⟩ := Edit.runs_bind.1 h
    obtain ⟨text, htext, hfirst⟩ := writeReport_runs_iff.1 hfirst
    have hcomponents : Path.components a.1 = d ++ [name] := by
      rw [hpath, Place.components_path hproper.isName]
    have hdirect : Path.IsDirect a.1 := hpath ▸ hproper.isDirect_path
    obtain ⟨husable, hgrown, hface⟩ := Edit.writeFile_runs hplain hdirect hcomponents hfirst
    obtain ⟨hgrown', hwritten⟩ := ih htexts (hgrown.plain hplain) hnodup hothers
    -- the other texts go to other places
    have hother : ¬ ∃ b ∈ texts, d ++ [name] = Path.components b.1 := by
      rintro ⟨b, hb, heq⟩
      obtain ⟨name', hpath', hproper'⟩ := htexts b hb
      rw [hpath', Place.components_path hproper'.isName] at heq
      exact hnew (List.mem_map.2 ⟨b, hb, by rw [hpath, hpath', heq]⟩)
    refine ⟨.trans (hgrown.mono ?_ fun _ => id) (hgrown'.mono ?_ fun _ => id),
      List.forall_mem_cons.2 ⟨⟨husable, text, htext, ?_⟩, hwritten⟩⟩
    · exact fun q hq => ⟨a, List.mem_cons_self .., hq.trans hcomponents.symm⟩
    · exact fun q ⟨b, hb, hq⟩ => ⟨b, List.mem_cons_of_mem a hb, hq⟩
    · rw [hcomponents, hgrown'.face_eq hother (by simp), hface]

/-- Where all reports are there already, the tree stays as it is. -/
theorem runs_forM_writeReport_self (hplain : tree.isPlain = true)
    (h : ∀ a ∈ texts, IsWritten a tree) :
    Runs (texts.forM fun (path, text) => writeReport path text) tree ⟨⟩ tree := by
  induction texts with
  | nil => rfl
  | cons a texts ih =>
    obtain ⟨⟨name, hpath, hproper⟩, htexts⟩ := List.forall_mem_cons.1 htexts
    obtain ⟨⟨husable, text, htext, hface⟩, h⟩ := List.forall_mem_cons.1 h
    have hdirect : Path.IsDirect a.1 := hpath ▸ hproper.isDirect_path
    have hself := Edit.runs_writeFile_self hplain hdirect husable hface
    exact Edit.runs_bind.2 ⟨_, tree, writeReport_runs_iff.2 ⟨text, htext, hself⟩, ih htexts h⟩

end Reports

/-! ### The ignore file of the reports -/

/-- The ignore file that a run writes, if the reports do not go to the root of the repository. -/
def protectReports (s : Settings) : FileEdit Unit :=
  if s.outputDirectory = s.root then pure () else protectDirectory s.outputDirectory

theorem protectDirectory_path (hd : d.IsProper) :
    protectDirectory d.path = (do
      if !(← Edit.ask (·.pathExists (Place.path (d ++ [ignoreFileName])))) then
        writeText (Place.path (d ++ [ignoreFileName])) ignoreFileContent) := by
  have hpath : Path.append d.path ".gitignore".toList = Place.path (d ++ [ignoreFileName]) :=
    Place.append_name hd.isName isProper_ignoreFileName.1
  simp only [protectDirectory, hpath]

section Protect

variable (hplain : tree.isPlain = true) (hd : d.IsProper)
include hplain hd

/-- **An ignore file is there afterwards, the old one if there was one.** -/
theorem protectDirectory_runs {u : Unit} (h : Runs (protectDirectory d.path) tree u tree') :
    Path.Usable (Place.path (d ++ [ignoreFileName])) ∧ tree'.faceAt (d ++ [ignoreFileName]) ≠ none ∧
      Grown (· = d ++ [ignoreFileName]) (fun _ => False) tree tree' ∧
        (tree.faceAt (d ++ [ignoreFileName]) ≠ none → tree' = tree) := by
  have hproper := hd.concat isProper_ignoreFileName
  have hcomponents : Path.components (Place.path (d ++ [ignoreFileName])) = d ++ [ignoreFileName] :=
    Place.components_path hproper.isName
  have hexists := Entry.pathExists_eq_true_iff hplain hproper.isDirect_path
  rw [hcomponents] at hexists
  rw [protectDirectory_path hd] at h
  obtain ⟨found, mid, hask, h⟩ := Edit.runs_bind.1 h
  obtain ⟨hfound, rfl⟩ := Edit.runs_ask.1 hask
  cases found with
  | true =>
    obtain ⟨-, rfl⟩ := Edit.runs_pure.1 h
    obtain ⟨husable, hthere⟩ := hexists.1 hfound
    exact ⟨husable, hthere, .refl tree, fun _ => rfl⟩
  | false =>
    obtain ⟨husable, hgrown, hface⟩ :=
      Edit.writeFile_runs hplain hproper.isDirect_path hcomponents h
    refine ⟨husable, by simp [hface], hgrown, fun hthere => ?_⟩
    exact absurd (hexists.2 ⟨husable, hthere⟩) (by simp [hfound])

theorem runs_protectDirectory_self (husable : Path.Usable (Place.path (d ++ [ignoreFileName])))
    (h : tree.faceAt (d ++ [ignoreFileName]) ≠ none) :
    Runs (protectDirectory d.path) tree () tree := by
  have hproper := hd.concat isProper_ignoreFileName
  have hfound : tree.pathExists (Place.path (d ++ [ignoreFileName])) = .ok true :=
    (Entry.pathExists_eq_true_iff hplain hproper.isDirect_path).2
      ⟨husable, by rwa [Place.components_path hproper.isName]⟩
  rw [protectDirectory_path hd]
  exact Edit.runs_bind.2 ⟨true, tree, Edit.runs_ask.2 ⟨hfound, rfl⟩, rfl⟩

variable (hpath : s.outputDirectory = d.path)
include hpath

theorem protectReports_runs {u : Unit} (h : Runs (protectReports s) tree u tree') :
    Grown (fun q => s.outputDirectory ≠ s.root ∧ q = d ++ [ignoreFileName])
        (fun _ => False) tree tree' ∧
      (s.outputDirectory ≠ s.root → Path.Usable (Place.path (d ++ [ignoreFileName])) ∧
        tree'.faceAt (d ++ [ignoreFileName]) ≠ none) ∧
      (tree.faceAt (d ++ [ignoreFileName]) ≠ none → tree' = tree) := by
  unfold protectReports at h
  split at h
  · next hroot =>
    obtain ⟨-, rfl⟩ := Edit.runs_pure.1 h
    exact ⟨.refl tree, fun hne => absurd hroot hne, fun _ => rfl⟩
  · next hroot =>
    obtain ⟨husable, hthere, hgrown, hkept⟩ := protectDirectory_runs hplain hd (hpath ▸ h)
    exact ⟨hgrown.mono (fun q hq => ⟨hroot, hq⟩) fun _ => id, fun _ => ⟨husable, hthere⟩, hkept⟩

theorem runs_protectReports_self (h : s.outputDirectory ≠ s.root →
      Path.Usable (Place.path (d ++ [ignoreFileName])) ∧
        tree.faceAt (d ++ [ignoreFileName]) ≠ none) :
    Runs (protectReports s) tree () tree := by
  unfold protectReports
  split
  · rfl
  · next hroot =>
    rw [hpath]
    exact runs_protectDirectory_self hplain hd (h hroot).1 (h hroot).2

end Protect

/-! ### All files of a run -/

/-- The name of the Markdown report. -/
def markdownName : Text := "AI_CONTEXT.md".toList

/-- The name of the JSON report. -/
def jsonName : Text := "AI_CONTEXT.json".toList

/-- A run in steps: the directory, its ignore file, and the reports. -/
theorem writeReports_eq : writeReports s p = (do
    (Edit.makeDirectories s.outputDirectory).lift
    (protectReports s).lift
    (reports s p).forM fun (path, text) => writeReport path text
    return (reports s p).map (·.1)) := by
  unfold writeReports protectReports
  by_cases hroot : s.outputDirectory = s.root
  · simp [hroot]
  · simp [hroot]

theorem writeReports_runs_iff {outputs : List Text} :
    Runs (writeReports s p) tree outputs tree' ↔ outputs = (reports s p).map (·.1) ∧ ∃ made guarded,
      Runs (Edit.makeDirectories s.outputDirectory) tree () made ∧
      Runs (protectReports s) made () guarded ∧
      Runs ((reports s p).forM fun (path, text) => writeReport path text) guarded ⟨⟩ tree' := by
  rw [writeReports_eq]
  constructor
  · intro h
    obtain ⟨u, made, hmake, h⟩ := Edit.runs_bind.1 h
    obtain ⟨v, guarded, hguard, h⟩ := Edit.runs_bind.1 h
    obtain ⟨w, left, hwrite, h⟩ := Edit.runs_bind.1 h
    obtain ⟨rfl, rfl⟩ := Edit.runs_pure.1 h
    exact ⟨rfl, made, guarded, Edit.runs_lift.1 hmake, Edit.runs_lift.1 hguard, hwrite⟩
  · rintro ⟨rfl, made, guarded, hmake, hguard, hwrite⟩
    exact Edit.runs_bind.2 ⟨(), made, Edit.runs_lift.2 hmake, Edit.runs_bind.2 ⟨(), guarded,
      Edit.runs_lift.2 hguard, Edit.runs_bind.2 ⟨⟨⟩, tree', hwrite, rfl⟩⟩⟩

/-- The places that a run may write, other than directories: the ignore file, if the reports have a
directory of their own, and the reports. -/
def writes (s : Settings) (p : ProjectIndex) (d q : Place) : Prop :=
  (s.outputDirectory ≠ s.root ∧ q = d ++ [ignoreFileName]) ∨
    ∃ a ∈ reports s p, q = Path.components a.1

/-- What a run leaves in a tree: the directory of the reports, its ignore file, and the reports. -/
structure Written (s : Settings) (p : ProjectIndex) (d : Place) (tree : Entry) : Prop where
  directory : d ≠ [] → Path.Usable d.path ∧ tree.faceAt d = some .directory
  ignoreFile : s.outputDirectory ≠ s.root →
    Path.Usable (Place.path (d ++ [ignoreFileName])) ∧ tree.faceAt (d ++ [ignoreFileName]) ≠ none
  reports : ∀ a ∈ reports s p, IsWritten a tree

theorem isProper_written : ∀ n ∈ [ignoreFileName, markdownName, jsonName], Path.IsProper n := by
  decide

section Writes

variable (hpath : s.outputDirectory = d.path) (hd : d.IsProper)
include hpath hd

theorem reports_eq : reports s p =
    (if s.format.hasMarkdown then [(Place.path (d ++ [markdownName]), p.markdownReport)] else []) ++
    (if s.format.hasJson then [(Place.path (d ++ [jsonName]), p.renderJson)] else []) := by
  have hmarkdown : Path.append d.path markdownName = Place.path (d ++ [markdownName]) :=
    Place.append_name hd.isName (isProper_written markdownName (by simp)).1
  have hjson : Path.append d.path jsonName = Place.path (d ++ [jsonName]) :=
    Place.append_name hd.isName (isProper_written jsonName (by simp)).1
  rw [← hmarkdown, ← hjson, ← hpath]
  rfl

/-- A report goes to a file in their directory, under its own name. -/
theorem exists_name_of_mem_reports {a : Text × Except Failure Text} (ha : a ∈ reports s p) :
    ∃ name ∈ [markdownName, jsonName], a.1 = Place.path (d ++ [name]) ∧
      Place.IsProper (d ++ [name]) ∧ Path.components a.1 = d ++ [name] := by
  obtain ⟨name, hname, hpath⟩ : ∃ name ∈ [markdownName, jsonName],
      a.1 = Place.path (d ++ [name]) := by
    rw [reports_eq hpath hd, List.mem_append] at ha
    rcases ha with ha | ha
    · exact ⟨markdownName, by simp, by split at ha <;> simp_all⟩
    · exact ⟨jsonName, by simp, by split at ha <;> simp_all⟩
  have hproper := hd.concat (isProper_written name (List.mem_cons_of_mem _ hname))
  exact ⟨name, hname, hpath, hproper, by rw [hpath, Place.components_path hproper.isName]⟩

theorem nodup_reports : ((reports s p).map (·.1)).Nodup := by
  have hcomponents : ∀ name ∈ [ignoreFileName, markdownName, jsonName],
      Path.components (Place.path (d ++ [name])) = d ++ [name] := fun name hname =>
    Place.components_path (hd.concat (isProper_written name hname)).isName
  have hdifferent : Place.path (d ++ [markdownName]) ≠ Place.path (d ++ [jsonName]) := by
    intro heq
    have hplace := congrArg Path.components heq
    rw [hcomponents _ (by simp), hcomponents _ (by simp)] at hplace
    exact absurd (List.append_cancel_left hplace) (by decide)
  rw [reports_eq hpath hd]
  cases s.format.hasMarkdown <;> cases s.format.hasJson <;> simp [hdifferent]

/-- No report is the ignore file or lies below it. -/
theorem not_ignoreFile_of_mem_reports {a : Text × Except Failure Text} (ha : a ∈ reports s p) :
    ¬ d ++ [ignoreFileName] <+: Path.components a.1 := by
  obtain ⟨name, hname, -, -, hplace⟩ := exists_name_of_mem_reports hpath hd ha
  rw [hplace, List.prefix_append_right_inj, List.cons_prefix_cons]
  rintro ⟨rfl, -⟩
  exact absurd hname (by decide)

/-- **A run leaves its reports and changes nothing else; an ignore file that is there stays.** -/
theorem writeReports_runs (hplain : tree.isPlain = true) {outputs : List Text}
    (h : Runs (writeReports s p) tree outputs tree') :
    Grown (writes s p d) (· <+: d) tree tree' ∧ Written s p d tree' ∧
      ∀ e, tree.get? (d ++ [ignoreFileName]) = some e →
        tree'.get? (d ++ [ignoreFileName]) = some e := by
  obtain ⟨-, made, guarded, hmake, hguard, hwrite⟩ := writeReports_runs_iff.1 h
  have hcomponents : Path.components d.path = d := Place.components_path hd.isName
  rw [hpath] at hmake
  obtain ⟨hgrown, hmade⟩ := Edit.makeDirectories_runs hplain hd.isDirect_path hmake
  rw [hcomponents, Place.normal_path hd.isName] at hmade
  rw [hcomponents] at hgrown
  have hplainMade := hgrown.plain hplain
  obtain ⟨hgrownGuarded, hignore, hkept⟩ := protectReports_runs hplainMade hd hpath hguard
  have htexts : ∀ a ∈ reports s p, ∃ name, a.1 = Place.path (d ++ [name]) ∧
      Place.IsProper (d ++ [name]) := fun a ha =>
    (exists_name_of_mem_reports hpath hd ha).imp fun name h => ⟨h.2.1, h.2.2.1⟩
  obtain ⟨hgrownReports, hreports⟩ :=
    forM_writeReport_runs htexts (hgrownGuarded.plain hplainMade) (nodup_reports hpath hd) hwrite
  have hother {q : Place} (hq : ∃ a ∈ reports s p, q = Path.components a.1) :
      ¬ d ++ [ignoreFileName] <+: q := by
    obtain ⟨a, ha, rfl⟩ := hq
    exact not_ignoreFile_of_mem_reports hpath hd ha
  refine ⟨?_, ⟨fun hne => ?_, fun hroot => ?_, hreports⟩, fun e he => ?_⟩
  · refine (hgrown.mono (fun _ => False.elim) fun _ => id).trans
      ((hgrownGuarded.mono (fun _ => .inl) fun _ => False.elim).trans
        (hgrownReports.mono (fun _ => .inr) fun _ => False.elim))
  · obtain ⟨husable, hface⟩ := hmade hne
    exact ⟨husable, hgrownReports.directories _ (hgrownGuarded.directories _ hface)⟩
  · obtain ⟨husable, hthere⟩ := hignore hroot
    refine ⟨husable, ?_⟩
    rwa [hgrownReports.face_eq (fun hq => hother hq List.prefix_rfl) (by simp)]
  · have hmadeEntry : made.get? (d ++ [ignoreFileName]) = some e := by
      refine hgrown.untouched _ e (fun w hw hbegins => ?_) he
      have hlength := (List.IsPrefix.trans hbegins (hw.resolve_left id)).length_le
      simp only [List.length_append, List.length_singleton] at hlength
      omega
    obtain rfl : guarded = made := hkept (by simp [Entry.faceAt, hmadeEntry])
    exact hgrownReports.untouched _ e (fun w hw => hother (hw.resolve_right id)) hmadeEntry

/-- **Where all is written already, a run changes nothing.** -/
theorem runs_writeReports_self (hplain : tree.isPlain = true) (h : Written s p d tree) :
    Runs (writeReports s p) tree ((reports s p).map (·.1)) tree := by
  refine writeReports_runs_iff.2 ⟨rfl, tree, tree, ?_, ?_, ?_⟩
  · rw [hpath]
    refine Edit.runs_makeDirectories_self hplain hd.isDirect_path fun hne => ?_
    rw [Place.components_path hd.isName] at hne ⊢
    rw [Place.normal_path hd.isName]
    exact h.directory hne
  · exact runs_protectReports_self hplain hd hpath h.ignoreFile
  · refine runs_forM_writeReport_self (d := d) (fun a ha => ?_) hplain h.reports
    exact (exists_name_of_mem_reports hpath hd ha).imp fun name h => ⟨h.2.1, h.2.2.1⟩

end Writes

/-! ## Reading beside what is written -/

/-- No file that a run writes is a source. -/
theorem lowerSuffix_written : ∀ n ∈ [ignoreFileName, markdownName, jsonName],
    Path.lowerSuffix n ∉ Extractor.allExtensions Extractor.all := by
  simp only [Extractor.allExtensions, Text.mem_sortedSet]
  decide

section Spares

variable {r below : Place} (hr : r.IsProper) (hroot : s.root = r.path)
  (hbelow : s.LeadsToOutput r below)
include hr hroot hbelow

/-- What a run writes below the root of the repository is in the directory of the reports, under a
name that is no source; and it is no ignore file of the root. -/
theorem exists_of_writes {q : Place} (h : writes s p (r ++ below) (r ++ q)) :
    ∃ name ∈ [ignoreFileName, markdownName, jsonName], q = below ++ [name] ∧
      (name = ignoreFileName → below ≠ []) := by
  rcases h with ⟨hne, hq⟩ | ⟨a, ha, hq⟩
  · refine ⟨ignoreFileName, by simp, ?_, ?_⟩
    · rwa [List.append_assoc, List.append_cancel_left_eq] at hq
    · rintro - rfl
      rw [hbelow.path, hroot, List.append_nil] at hne
      exact hne rfl
  · obtain ⟨name, hname, -, -, hplace⟩ :=
      exists_name_of_mem_reports hbelow.path (hr.append hbelow.proper) ha
    rw [hplace, List.append_assoc, List.append_cancel_left_eq] at hq
    refine ⟨name, List.mem_cons_of_mem _ hname, hq, ?_⟩
    rintro rfl
    exact absurd hname (by decide)

/-- A name in the root that is written to is that of a report, if it is not on the way to them. -/
theorem not_writes {name : Text} (hname : name ∉ [markdownName, jsonName]) (hout : name ∉ below) :
    ¬ writes s p (r ++ below) (r ++ [name]) ∧ ¬ r ++ [name] <+: r ++ below := by
  constructor
  · intro h
    obtain ⟨name', hname', hq, hignore⟩ := exists_of_writes hr hroot hbelow h
    obtain ⟨rfl, rfl⟩ : below = [] ∧ name = name' := by
      cases below <;> simp_all
    rcases List.mem_cons.1 hname' with rfl | hreport
    · exact hignore rfl rfl
    · exact hname hreport
  · rw [List.prefix_append_right_inj]
    intro h
    exact hout (h.subset (by simp))

/-- **A run writes nothing that a scan of its repository looks at.** -/
theorem spares : Scan.Spares (writes s p (r ++ below)) (· <+: r ++ below) r
    (Extractor.allExtensions Extractor.all) where
  sources q hq := by
    obtain ⟨name, hname, rfl, -⟩ := exists_of_writes hr hroot hbelow hq
    rw [Place.lowerSuffix_relativePath (hbelow.proper.concat (isProper_written name hname)).isName]
    exact lowerSuffix_written name hname
  ignoreFile := not_writes hr hroot hbelow (by decide) hbelow.own.2

end Spares

/-! ## Two runs -/

variable {env : Environment} {overrides : Overrides} {root : Text}
  {progress : ProjectIndex.Progress} {g : Generation}

/-- A run that succeeds, in its two parts. -/
theorem run_of_runs {outputs : List Text}
    (hprepare : prepare env overrides tree root = .ok (s, progress))
    (h : Runs (writeReports s progress.index) tree outputs tree') :
    run env overrides root tree =
      { result := .ok
          { fileCount := progress.index.fileCount
            functionCount := progress.index.functionCount
            classCount := progress.index.classCount
            outputs }
        tree := tree'
        log := progress.log ++ outputs.map wrote } := by
  have hwrite : (writeReports s progress.index).run tree = (.ok outputs, tree') := h
  simp only [run, hprepare, hwrite]

theorem exists_runs_of_run (hprepare : prepare env overrides tree root = .ok (s, progress))
    (h : (run env overrides root tree).result = .ok g) :
    ∃ outputs,
      Runs (writeReports s progress.index) tree outputs (run env overrides root tree).tree := by
  cases hwrite : (writeReports s progress.index).run tree with
  | mk result after =>
    cases result with
    | error e => simp [run, hprepare, hwrite] at h
    | ok outputs =>
      refine ⟨outputs, ?_⟩
      rw [run_of_runs hprepare hwrite]
      exact hwrite

/-- **A run that succeeds is idempotent.** A second one has the same result, the same log and the
same tree; it sees the same settings and builds the same index. An ignore file that was in the
directory of the reports is as it was. -/
theorem run_idempotent (hplain : tree.isPlain = true)
    (hprepare : prepare env overrides tree root = .ok (s, progress)) (houtput : s.HasOwnOutput)
    (hsuccess : (run env overrides root tree).result = .ok g) :
    run env overrides root (run env overrides root tree).tree = run env overrides root tree ∧
      prepare env overrides (run env overrides root tree).tree root = .ok (s, progress) ∧
      ∀ e, tree.get? (Path.components s.outputDirectory ++ [ignoreFileName]) = some e →
        (run env overrides root tree).tree.get?
          (Path.components s.outputDirectory ++ [ignoreFileName]) = some e := by
  obtain ⟨r, hr, hreal, hroot⟩ := exists_repository_of_prepare hplain hprepare
  obtain ⟨below, hbelow⟩ := Settings.exists_leadsToOutput hr.proper hroot houtput
  have hd := hr.proper.append hbelow.proper
  obtain ⟨outputs, hruns⟩ := exists_runs_of_run hprepare hsuccess
  obtain ⟨hgrown, hwritten, hignore⟩ := writeReports_runs hbelow.path hd hplain hruns
  have hsettings : ¬ writes s progress.index (r ++ below) (r ++ [settingsFileName]) ∧
      ¬ r ++ [settingsFileName] <+: r ++ below :=
    not_writes hr.proper hroot hbelow (by decide) hbelow.own.1
  have hspares := spares (p := progress.index) hr.proper hroot hbelow
  have hprepare' :
      prepare env overrides (run env overrides root tree).tree root = .ok (s, progress) :=
    (prepare_congr hplain hgrown hr hreal hspares hsettings.1 hsettings.2).trans hprepare
  refine ⟨?_, hprepare', ?_⟩
  · have hself := runs_writeReports_self hbelow.path hd (hgrown.plain hplain) hwritten
    obtain ⟨rfl, -⟩ := writeReports_runs_iff.1 hruns
    rw [run_of_runs hprepare' hself]
    exact (run_of_runs hprepare hruns).symm
  · rw [hbelow.path, Place.components_path hd.isName]
    exact hignore

def sampleText : Text := "def f():\n    pass\n".toList

/-- A repository with one source and a directory for the reports, in which there is an ignore
file. -/
def sampleRepository : Entry := .directory [
  ("a.py".toList, .file (Utf8.encode sampleText)),
  ("docs".toList, .directory [("index".toList, .directory [(ignoreFileName, .file [])])])]

/-- The repository as the only entry of the root directory. -/
def sampleTree : Entry := .directory [("r".toList, sampleRepository)]

def sampleEnvironment : Environment where
  workingDirectory := ['/']
  time := "2024-01-01T00:00:00+00:00".toList

def sampleOverrides : Overrides where
  outputPath := some "docs/index".toList

def sampleSettings : Settings where
  root := "/r".toList
  outputPath := "docs/index".toList

/-- The only source is the only file that a scan finds. -/
theorem scan_sampleTree : Scan.files sampleEnvironment
    (ProjectIndex.scanOptions sampleSettings (Extractor.allExtensions Extractor.all)) sampleTree
      "/r".toList = .ok (["/r/a.py".toList], []) := by
  have hpath : sampleEnvironment.realPath sampleTree "/r".toList = .ok "/r".toList := by cbv
  have hrepository : sampleTree.stat "/r".toList = .ok sampleRepository := by cbv
  have hrules : Scan.ignoreFileRules sampleTree "/r".toList = .ok [] := by cbv
  have hbelow : sampleRepository.filesBelow
      (Scan.choice (IgnoreRule.ofPatterns sampleSettings.scanExcludes)
        (Scan.linksDirectory sampleTree "/r".toList)) [] = ["a.py".toList] := by decide +kernel
  have hsuffix : Path.lowerSuffix "a.py".toList ∈ Extractor.allExtensions Extractor.all :=
    Text.mem_sortedSet.2 (by decide +kernel)
  have hfound : Scan.candidates (IgnoreRule.ofPatterns sampleSettings.scanExcludes)
      (Extractor.allExtensions Extractor.all) sampleTree "/r".toList sampleRepository =
        ["/r/a.py".toList] := by
    simp only [Scan.candidates, hbelow, List.filter_cons, List.contains_iff_mem, hsuffix, if_true,
      List.filter_nil, List.map_cons, List.map_nil]
    decide +kernel
  have hsource : sampleTree.stat "/r/a.py".toList = .ok (.file (Utf8.encode sampleText)) := by cbv
  exact Scan.files_eq_of_kept hpath hrepository rfl hrules hfound fun path hpath' =>
    Scan.verdict_eq_kept_iff.2 ⟨_, List.mem_singleton.1 hpath' ▸ hsource, by decide⟩

/-- The index of the repository is built, and its integers can be written. -/
theorem exists_prepare_sampleTree : ∃ progress,
    prepare sampleEnvironment sampleOverrides sampleTree "/r".toList =
        .ok (sampleSettings, progress) ∧
      progress.index.markdownReport = .ok progress.index.renderMarkdown := by
  have hsettings :
      settings sampleEnvironment sampleOverrides sampleTree "/r".toList = .ok sampleSettings := by
    cbv
  have hpath : sampleEnvironment.realPath sampleTree "/r".toList = .ok "/r".toList := by cbv
  obtain ⟨progress, hbuild, hindex⟩ := ProjectIndex.build_eq_indexOf hpath scan_sampleTree
  refine ⟨progress, ?_, ?_⟩
  · simp only [prepare, hsettings, hpath, hbuild, bind, Except.bind]
    rfl
  · have hsource : sampleTree.readFile "/r/a.py".toList = .ok (Utf8.encode sampleText) := by cbv
    have hcontent : FileIndex.content sampleTree "/r/a.py".toList = .ok sampleText := by
      simp only [FileIndex.content, hsource, Utf8.decode_encode]
      rfl
    have hread : FileIndex.read sampleTree "/r".toList "/r/a.py".toList =
        FileIndex.ofContent "/r".toList "/r/a.py".toList sampleText := by
      rw [FileIndex.read, hcontent]
    rw [hindex, ProjectIndex.indexOf, ProjectIndex.Progress.run, List.foldl_cons, hread]
    exact if_pos (by decide +kernel)

theorem exists_runs_sampleTree {p : ProjectIndex} (h : p.markdownReport = .ok p.renderMarkdown) :
    ∃ outputs tree', Runs (writeReports sampleSettings p) sampleTree outputs tree' := by
  have hentry : sampleTree.locate false (Path.normal sampleSettings.outputDirectory) =
      .ok (.entry ["r".toList, "docs".toList, "index".toList]) := by cbv
  have hmake :
      Runs (Edit.makeDirectories sampleSettings.outputDirectory) sampleTree () sampleTree :=
    Edit.runs_makeDirectories_of_entry hentry (by cbv)
  have hignore : sampleTree.pathExists
      (Path.append sampleSettings.outputDirectory ignoreFileName) = .ok true := by cbv
  have hguard : Runs (protectReports sampleSettings) sampleTree () sampleTree := by
    rw [protectReports, if_neg (by decide)]
    exact Edit.runs_bind.2 ⟨true, sampleTree, Edit.runs_ask.2 ⟨hignore, rfl⟩, rfl⟩
  have hlocate : sampleTree.locate true "/r/docs/index/AI_CONTEXT.md".toList =
      .ok (.missing ["r".toList, "docs".toList, "index".toList] markdownName) := by cbv
  have hreports :
      reports sampleSettings p = [("/r/docs/index/AI_CONTEXT.md".toList, p.markdownReport)] := rfl
  obtain ⟨tree', hwrite⟩ :
      ∃ tree', Runs (writeText "/r/docs/index/AI_CONTEXT.md".toList p.renderMarkdown)
        sampleTree () tree' := by
    simp only [Runs, writeText, Edit.writeFile, Edit.run_updateFile, hlocate]
    exact ⟨_, rfl⟩
  refine ⟨_, tree', writeReports_runs_iff.2 ⟨rfl, sampleTree, sampleTree, hmake, hguard, ?_⟩⟩
  rw [hreports, h]
  exact Edit.runs_bind.2 ⟨(), tree', Edit.runs_lift.2 hwrite, rfl⟩

theorem run_idempotent_sampleTree : sampleTree.isPlain = true ∧ sampleSettings.HasOwnOutput ∧
    ∃ progress g,
      prepare sampleEnvironment sampleOverrides sampleTree "/r".toList =
        .ok (sampleSettings, progress) ∧
      (run sampleEnvironment sampleOverrides "/r".toList sampleTree).result = .ok g ∧
      run sampleEnvironment sampleOverrides "/r".toList
          (run sampleEnvironment sampleOverrides "/r".toList sampleTree).tree =
        run sampleEnvironment sampleOverrides "/r".toList sampleTree ∧
      (run sampleEnvironment sampleOverrides "/r".toList sampleTree).tree.get?
        ["r".toList, "docs".toList, "index".toList, ignoreFileName] = some (.file []) := by
  have hplain : sampleTree.isPlain = true := by decide
  have houtput : sampleSettings.HasOwnOutput := by decide
  obtain ⟨progress, hprepare, hmarkdown⟩ := exists_prepare_sampleTree
  obtain ⟨outputs, tree', hruns⟩ := exists_runs_sampleTree hmarkdown
  have hresult := congrArg Outcome.result (run_of_runs hprepare hruns)
  obtain ⟨hsame, -, hignore⟩ := run_idempotent hplain hprepare houtput hresult
  exact ⟨hplain, houtput, progress, _, hprepare, hresult, hsame, hignore (.file []) rfl⟩

end Generate

end CodeIndex
