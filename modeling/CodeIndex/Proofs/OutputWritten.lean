import CodeIndex.Proofs.FileTree.Reach
import CodeIndex.Proofs.Generate

/-!
# The files that a run writes

`writeReports_changes`: whatever the tree, with or without links, and whether the run succeeds or
fails, the only files that it makes or changes are the ignore file and the reports in the directory
to which the output path leads, or those to which links of these names lead. The ignore file is
written only if there is none and the path of the directory is not the one of the root. Paths are
compared as they are written: a path that goes down and back up again leads to the root and is
another path, and so it gets an ignore file there (`writeReports_wayBack`).
-/

namespace CodeIndex.Generate

open Edit (Runs Touches)
open Entry (Touched)
open Scan (ignoreFileName)

variable {tree tree' : Entry} {s : Settings} {p : ProjectIndex}

/-! ## The steps of a run -/

/-- A file that a run writes into the directory of the reports, by its name, once the directory is
made. -/
inductive WritesName (s : Settings) (made : Entry) : Text → Prop
  /-- The ignore file, if the path of the directory is not the one of the root, and there is
  none. -/
  | ignoreFile (hroot : s.outputDirectory ≠ s.root)
      (hnone : made.pathExists (Path.append s.outputDirectory ignoreFileName) = .ok false) :
      WritesName s made ignoreFileName
  | markdown (h : s.format.hasMarkdown = true) : WritesName s made markdownName
  | json (h : s.format.hasJson = true) : WritesName s made jsonName

/-- The paths that a run writes. -/
def WritesPath (s : Settings) (made : Entry) (path : Text) : Prop :=
  ∃ name, WritesName s made name ∧ path = Path.append s.outputDirectory name

theorem touches_writeText (path text : Text) : Touches (· = path) (writeText path text) := by
  rw [writeText, Edit.writeFile]
  exact Edit.touches_updateFile path _

theorem protectDirectory_eq (directory : Text) : protectDirectory directory = (do
    if !(← Edit.ask (·.pathExists (Path.append directory ignoreFileName))) then
      writeText (Path.append directory ignoreFileName) ignoreFileContent) := rfl

theorem touched_protectReports (made : Entry) :
    Touched (WritesPath s made) made ((protectReports s).left made) := by
  unfold protectReports
  split
  · exact .refl made
  · next hroot =>
    rw [protectDirectory_eq]
    refine Edit.touched_bind (Touches.ask _ made) fun found mid hask => ?_
    obtain ⟨hfound, rfl⟩ := Edit.runs_ask.1 hask
    cases found with
    | true => exact .refl made
    | false =>
      simp only [Bool.not_false, if_true]
      refine (touches_writeText _ _ made).mono fun path hpath => ?_
      exact ⟨ignoreFileName, .ignoreFile hroot hfound, hpath⟩

/-- A report touches its file, if it has a text. -/
theorem touches_writeReport (path : Text) (report : Except Failure Text) :
    Touches (· = path) (writeReport path report) := by
  cases report with
  | ok text => exact (touches_writeText path text).lift
  | error e => exact .throw e

theorem touches_forM_writeReport (texts : List (Text × Except Failure Text)) :
    Touches (fun path => ∃ a ∈ texts, path = a.1)
      (texts.forM fun (path, text) => writeReport path text : Edit Failure PUnit) := by
  induction texts with
  | nil => exact .pure PUnit.unit
  | cons a texts ih =>
    refine .bind ((touches_writeReport a.1 a.2).mono fun path hpath => ?_) fun _ => ih.mono ?_
    · exact ⟨a, List.mem_cons_self .., hpath⟩
    · rintro path ⟨b, hb, hpath⟩
      exact ⟨b, List.mem_cons_of_mem a hb, hpath⟩

theorem writesPath_of_mem_reports {made : Entry} {a : Text × Except Failure Text}
    (ha : a ∈ reports s p) : WritesPath s made a.1 := by
  rcases List.mem_append.1 ha with ha | ha
  · split at ha
    · next h =>
      obtain rfl := List.mem_singleton.1 ha
      exact ⟨markdownName, .markdown h, rfl⟩
    · simp at ha
  · split at ha
    · next h =>
      obtain rfl := List.mem_singleton.1 ha
      exact ⟨jsonName, .json h, rfl⟩
    · simp at ha

/-- **A run touches only the files that it writes.** -/
theorem touched_writeReports (s : Settings) (p : ProjectIndex) (tree : Entry) :
    Touched (WritesPath s ((Edit.makeDirectories s.outputDirectory).left tree)) tree
      ((writeReports s p).left tree) := by
  rw [writeReports_eq]
  refine Edit.touched_bind (Edit.touches_makeDirectories _ tree) fun _ made hmade => ?_
  rw [Edit.left_eq (Edit.runs_lift.1 hmade)]
  refine Edit.touched_bind (touched_protectReports made) fun _ guarded _ => ?_
  refine Touches.bind ((touches_forM_writeReport _).mono ?_) (fun _ => .pure _) guarded
  rintro path ⟨a, ha, rfl⟩
  exact writesPath_of_mem_reports ha

/-! ## Where the files are -/

/-- The files that a run writes lie where the path of their directory leads, or where a link there
does. -/
theorem exists_directory_of_leadsTo {name : Text}
    (hname : name ∈ [ignoreFileName, markdownName, jsonName]) {q : Place}
    (h : tree.LeadsTo (Path.append s.outputDirectory name) q) :
    ∃ d, tree.LeadsTo s.outputDirectory d ∧
      (q = d ++ [name] ∨ ∃ text, tree.faceAt (d ++ [name]) = some (.link text)) := by
  have hproper := isProper_written name hname
  have hcomponents : Path.components (Path.append s.outputDirectory name) =
      Path.components s.outputDirectory ++ [name] := by
    have hone := Place.components_append_relativePath (List.forall_mem_singleton.2 hproper.1)
      s.outputDirectory
    rwa [Place.relativePath, Text.join_singleton] at hone
  rw [Entry.LeadsTo, hcomponents] at h
  exact h.concat hproper.descends

theorem WritesName.mem {made : Entry} {name : Text} (h : WritesName s made name) :
    name ∈ [ignoreFileName, markdownName, jsonName] := by
  cases h <;> simp

/-- **The ignore file is there after a run, unless the path of the directory is the one of the
root.** -/
theorem pathExists_ignoreFile {outputs : List Text} (h : Runs (writeReports s p) tree outputs tree')
    (hroot : s.outputDirectory ≠ s.root) :
    tree'.pathExists (Path.append s.outputDirectory ignoreFileName) = .ok true := by
  obtain ⟨-, made, guarded, -, hguard, hwrite⟩ := writeReports_runs_iff.1 h
  have hkeeps := (Edit.left_eq hwrite ▸ touches_forM_writeReport (reports s p) guarded).keeps
  refine hkeeps.pathExists ?_
  rw [protectReports, if_neg hroot, protectDirectory_eq] at hguard
  obtain ⟨found, mid, hask, hguard⟩ := Edit.runs_bind.1 hguard
  obtain ⟨hfound, rfl⟩ := Edit.runs_ask.1 hask
  cases found with
  | true =>
    obtain ⟨-, rfl⟩ := Edit.runs_pure.1 hguard
    exact hfound
  | false =>
    simp only [Bool.not_false, if_true, writeText, Edit.writeFile] at hguard
    exact Edit.pathExists_of_updateFile hguard

/-- The path of the directory is the one of the root exactly when the output path has no names. -/
theorem outputDirectory_eq_root_iff (hroot : Path.normal s.root = s.root)
    (hrelative : Path.isAbsolute s.outputPath = false) :
    s.outputDirectory = s.root ↔ Path.components s.outputPath = [] := by
  unfold Settings.outputDirectory
  split
  · next hwrites =>
    simp only [Settings.writesToRoot, Bool.or_eq_true, decide_eq_true_eq] at hwrites
    rcases hwrites with h | h <;> simp [h, Path.components, Text.splitChar, Text.splitCharFrom]
  · constructor
    · intro h
      have hcomponents := congrArg Path.components h
      simpa [Path.components_append hrelative] using hcomponents
    · intro h
      rw [Path.append, if_neg (by simp [hrelative]), h, List.append_nil]
      exact hroot

/-! ## The files of a run -/

/-- A file that a run has made or changed is one that it writes. -/
theorem exists_written_of_changed {q : Place}
    (hq : ((writeReports s p).left tree).fileAt q ≠ tree.fileAt q) :
    ∃ name d, WritesName s ((Edit.makeDirectories s.outputDirectory).left tree) name ∧
      ((writeReports s p).left tree).LeadsTo s.outputDirectory d ∧ (q = d ++ [name] ∨
        (∃ text, ((writeReports s p).left tree).get? (d ++ [name]) = some (.link text)) ∧
          ((writeReports s p).left tree).LeadsTo (Path.append s.outputDirectory name) q) := by
  obtain ⟨_, ⟨name, hname, rfl⟩, hleads⟩ := (touched_writeReports s p tree).files q hq
  obtain ⟨d, hd, hplace⟩ := exists_directory_of_leadsTo hname.mem hleads
  refine ⟨name, d, hname, hd, hplace.imp_right fun ⟨text, hlink⟩ => ⟨⟨text, ?_⟩, hleads⟩⟩
  exact Entry.faceAt_eq_link.1 hlink

/-- With the path of the root for the directory, a run leaves the ignore file of the root alone,
unless a report is a link. -/
theorem fileAt_ignoreFile_of_root (hroot : s.outputDirectory = s.root) {d : Place}
    (hd : ((writeReports s p).left tree).LeadsTo s.root d)
    (hlinks : ∀ name ∈ [markdownName, jsonName], ∀ text,
      ((writeReports s p).left tree).get? (d ++ [name]) ≠ some (.link text)) :
    ((writeReports s p).left tree).fileAt (d ++ [ignoreFileName]) =
      tree.fileAt (d ++ [ignoreFileName]) := by
  by_contra hne
  obtain ⟨name, d', hname, hd', hplace⟩ := exists_written_of_changed hne
  rw [hroot] at hd'
  obtain rfl : d = d' := hd.unique hd'
  have hreport : name ∈ [markdownName, jsonName] := by
    cases hname with
    | ignoreFile hother => exact absurd hroot hother
    | markdown => simp
    | json => simp
  rcases hplace with heq | ⟨⟨text, hlink⟩, -⟩
  · obtain rfl : ignoreFileName = name := List.head_eq_of_cons_eq (List.append_cancel_left heq)
    exact absurd hreport (by decide)
  · exact hlinks name hreport text hlink

/-- **The only files that a run makes or changes are the ignore file and the reports, in the
directory to which the output path leads, or behind links of these names.** If the path of the
directory is the one of the root, as it is for every output path without names, the ignore file of
the root stays as it is; if it is another one, an ignore file is there after a run that succeeds, be
the directory the root or not. -/
theorem writeReports_changes (s : Settings) (p : ProjectIndex) (tree : Entry) :
    let made := (Edit.makeDirectories s.outputDirectory).left tree
    let tree' := (writeReports s p).left tree
    (∀ q, tree'.fileAt q ≠ tree.fileAt q → ∃ name d, WritesName s made name ∧
      tree'.LeadsTo s.outputDirectory d ∧ (q = d ++ [name] ∨
        (∃ text, tree'.get? (d ++ [name]) = some (.link text)) ∧
          tree'.LeadsTo (Path.append s.outputDirectory name) q)) ∧
    (s.outputDirectory = s.root → ∀ d : Place, tree'.LeadsTo s.root d →
      (∀ name ∈ [markdownName, jsonName], ∀ text, tree'.get? (d ++ [name]) ≠ some (.link text)) →
        tree'.fileAt (d ++ [ignoreFileName]) = tree.fileAt (d ++ [ignoreFileName])) ∧
    (Path.normal s.root = s.root → Path.isAbsolute s.outputPath = false →
      (s.outputDirectory = s.root ↔ Path.components s.outputPath = [])) ∧
    ∀ outputs, Runs (writeReports s p) tree outputs tree' → s.outputDirectory ≠ s.root →
      tree'.pathExists (Path.append s.outputDirectory ignoreFileName) = .ok true := by
  intro made tree'
  exact ⟨fun q => exists_written_of_changed, fun hroot d => fileAt_ignoreFile_of_root hroot,
    outputDirectory_eq_root_iff, fun outputs => pathExists_ignoreFile⟩

/-! ### A way back to the root -/

def wayBackTree : Entry := .directory [("r".toList, .directory [("sub".toList, .directory [])])]

/-- Settings whose output path goes down and back up again. -/
def wayBackSettings : Settings where
  root := "/r".toList
  outputPath := "sub/..".toList

def wayBackIndex : ProjectIndex where
  projectName := "r".toList
  generated := []

/-- The tree with an ignore file in the root of the repository. -/
def wayBackGuarded : Entry :=
  .directory [("r".toList, .directory [("sub".toList, .directory []),
    (ignoreFileName, .file (Utf8.encode ignoreFileContent))])]

theorem runs_wayBack :
    ∃ outputs, Runs (writeReports wayBackSettings wayBackIndex) wayBackTree outputs
      (wayBackGuarded.put ["r".toList, markdownName]
        (.file (Utf8.encode wayBackIndex.renderMarkdown))) := by
  have hentry : wayBackTree.locate false (Path.normal wayBackSettings.outputDirectory) =
      .ok (.entry ["r".toList]) := by cbv
  have hmake :
      Runs (Edit.makeDirectories wayBackSettings.outputDirectory) wayBackTree () wayBackTree :=
    Edit.runs_makeDirectories_of_entry hentry (by cbv)
  have habsent : wayBackTree.pathExists
      (Path.append wayBackSettings.outputDirectory ignoreFileName) = .ok false := by cbv
  have hmissing : wayBackTree.locate true
      (Path.append wayBackSettings.outputDirectory ignoreFileName) =
        .ok (.missing ["r".toList] ignoreFileName) := by cbv
  have hwrite : Runs (writeText (Path.append wayBackSettings.outputDirectory ignoreFileName)
      ignoreFileContent) wayBackTree () wayBackGuarded := by
    rw [Runs, writeText, Edit.writeFile, Edit.run_updateFile, hmissing]
    rfl
  have hguard : Runs (protectReports wayBackSettings) wayBackTree () wayBackGuarded := by
    rw [protectReports, if_neg (by decide)]
    exact Edit.runs_bind.2 ⟨false, wayBackTree, Edit.runs_ask.2 ⟨habsent, rfl⟩, hwrite⟩
  have hlocate : wayBackGuarded.locate true "/r/sub/../AI_CONTEXT.md".toList =
      .ok (.missing ["r".toList] markdownName) := by cbv
  have hreports : reports wayBackSettings wayBackIndex =
      [("/r/sub/../AI_CONTEXT.md".toList, .ok wayBackIndex.renderMarkdown)] := rfl
  refine ⟨_, writeReports_runs_iff.2 ⟨rfl, wayBackTree, wayBackGuarded, hmake, hguard, ?_⟩⟩
  rw [hreports]
  refine Edit.runs_bind.2 ⟨(), _, Edit.runs_lift.2 ?_, rfl⟩
  simp only [Runs, writeText, Edit.writeFile, Edit.run_updateFile, hlocate]
  rfl

/-- The output path leads to the root, and yet a run leaves an ignore file there. -/
theorem writeReports_wayBack :
    wayBackTree.LeadsTo wayBackSettings.root ["r".toList] ∧
      wayBackTree.LeadsTo wayBackSettings.outputDirectory ["r".toList] ∧
      wayBackTree.fileAt ["r".toList, ignoreFileName] = none ∧
      ((writeReports wayBackSettings wayBackIndex).left wayBackTree).fileAt
        ["r".toList, ignoreFileName] = some (Utf8.encode ignoreFileContent) := by
  refine ⟨Entry.walk_eq_ok_iff.1 (by cbv), Entry.walk_eq_ok_iff.1 (by cbv), by decide, ?_⟩
  obtain ⟨outputs, hruns⟩ := runs_wayBack
  rw [Edit.left_eq hruns]
  rfl

end CodeIndex.Generate
