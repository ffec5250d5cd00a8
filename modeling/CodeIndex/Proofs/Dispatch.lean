import CodeIndex.Proofs.Path
import CodeIndex.Proofs.Scan
import CodeIndex.Proofs.Text.Cut

/-!
# Every scanned file can be parsed

A scan, the choice of an extractor and the extractor for scripts each look for the suffix of a file
in their own way: in the path below the root, in the last component of the whole path, and behind
the last dot of the whole path. They agree on every path that leads on from a directory to a file
with a suffix (`suffix_append`, `extension_append`), whatever dots the path has elsewhere.

So every file that a scan with the suffixes of all extractors finds has an extractor, which makes an
outline of it in the language of its suffix (`parseFile_of_mem_files`).
-/

namespace CodeIndex

namespace Path

/-! ## The last dot -/

/-- **A name is cut around its last dot.** -/
theorem cutLastDot?_eq_some_iff {n stem ext : Text} :
    cutLastDot? n = some (stem, ext) ↔ n = stem ++ '.' :: ext ∧ '.' ∉ ext := by
  constructor
  · intro h
    obtain ⟨⟨a, b⟩, hcut, hab⟩ := Option.map_eq_some_iff.1 h
    obtain ⟨rfl, rfl⟩ := Prod.mk.inj hab
    have hn : n.reverse = a ++ '.' :: b := by simpa using Text.eq_of_cut? hcut
    refine ⟨?_, ?_⟩
    · rw [← List.reverse_reverse n, hn]
      simp
    · intro hdot
      -- the cut is around the first dot of the reversed name
      rw [List.mem_reverse] at hdot
      obtain ⟨a₁, a₂, rfl, hnot⟩ := List.eq_append_cons_of_mem hdot
      rw [hn, List.append_assoc, List.cons_append, Text.cut?_char hnot] at hcut
      have := congrArg List.length (Prod.mk.inj (Option.some.inj hcut)).1
      simp at this
  · rintro ⟨rfl, hdot⟩
    have hdot' : '.' ∉ ext.reverse := by rwa [List.mem_reverse]
    rw [cutLastDot?, List.reverse_append, List.reverse_cons, List.append_assoc,
      List.singleton_append, Text.cut?_char hdot']
    simp

/-- The suffix of a path is what its last component has from its last dot on. -/
theorem exists_of_suffix_ne_nil {path : Text} (h : suffix path ≠ []) :
    ∃ stem ext, name path = stem ++ '.' :: ext ∧ stem ≠ [] ∧ '.' ∉ ext ∧
      suffix path = '.' :: ext := by
  unfold suffix at h ⊢
  split at h
  · exact absurd rfl h
  · next stem ext hcut =>
    obtain ⟨hname, hdot⟩ := cutLastDot?_eq_some_iff.1 hcut
    split at h
    · exact absurd rfl h
    · next hne =>
      simp only [Bool.or_eq_true, decide_eq_true_eq, not_or] at hne
      refine ⟨stem, ext, hname, hne.1, hdot, ?_⟩
      simp [hne]

/-! ## Paths that lead on from a directory -/

variable {path : Text}

/-- What leads on from a directory ends with the components of the path. -/
theorem exists_append_eq (directory path : Text) :
    ∃ base names, append directory path = ofComponents (anchor base) (names ++ components path) ∧
      ∀ n ∈ names, IsName n := by
  unfold append
  split
  · exact ⟨path, [], rfl, by simp⟩
  · exact ⟨directory, components directory, rfl, fun n hn => isName_of_mem_components hn⟩

theorem name_ne_nil_iff : name path ≠ [] ↔ ∃ names, components path = names ++ [name path] := by
  constructor
  · intro h
    have hne : components path ≠ [] := by
      intro hnil
      rw [name, hnil] at h
      exact h rfl
    refine ⟨(components path).dropLast, ?_⟩
    rw [name, List.getLastD_eq_getLast?, List.getLast?_eq_some_getLast hne, Option.getD_some,
      List.dropLast_append_getLast hne]
  · rintro ⟨names, hnames⟩ hnil
    have hmem : name path ∈ components path := by
      rw [hnames]
      simp
    exact (isName_of_mem_components hmem).1 hnil

/-- The last component is that of the path, wherever the path leads on from. -/
theorem name_append (h : name path ≠ []) (directory : Text) :
    name (append directory path) = name path := by
  obtain ⟨names, hnames⟩ := name_ne_nil_iff.1 h
  obtain ⟨base, front, heq, hfront⟩ := exists_append_eq directory path
  rw [name, heq, components_ofComponents, hnames, ← List.append_assoc, List.getLastD_concat]
  intro n hn
  rcases List.mem_append.1 hn with hn | hn
  · exact hfront n hn
  · exact isName_of_mem_components hn

/-- The text of the path ends with its last component. -/
theorem exists_append_eq_append_name (h : name path ≠ []) (directory : Text) :
    ∃ front, append directory path = front ++ name path := by
  obtain ⟨names, hnames⟩ := name_ne_nil_iff.1 h
  obtain ⟨base, front, heq, -⟩ := exists_append_eq directory path
  rw [heq, hnames, ← List.append_assoc, ofComponents, if_neg (by simp)]
  generalize front ++ names = init
  cases init with
  | nil => exact ⟨anchor base, by simp⟩
  | cons n init =>
    rw [Text.join_append_singleton (by simp)]
    exact ⟨anchor base ++ (Text.join ['/'] (n :: init) ++ ['/']), by simp⟩

/-- **The suffix is that of the path**, wherever it leads on from. -/
theorem suffix_append (h : suffix path ≠ []) (directory : Text) :
    suffix (append directory path) = suffix path := by
  obtain ⟨stem, ext, hname, -⟩ := exists_of_suffix_ne_nil h
  have hne : name path ≠ [] := by
    rw [hname]
    simp
  rw [suffix, name_append hne, suffix]

/-- **Behind the last dot of the whole text stands the suffix**, for the last component has a
dot. -/
theorem extension_append (h : suffix path ≠ []) (directory : Text) :
    extension (append directory path) = suffix path := by
  obtain ⟨stem, ext, hname, -, hdot, hsuffix⟩ := exists_of_suffix_ne_nil h
  have hne : name path ≠ [] := by
    rw [hname]
    simp
  obtain ⟨front, hfront⟩ := exists_append_eq_append_name hne directory
  have hcut : cutLastDot? (append directory path) = some (front ++ stem, ext) := by
    rw [cutLastDot?_eq_some_iff, hfront, hname, List.append_assoc]
    exact ⟨rfl, hdot⟩
  rw [extension, hcut, hsuffix]

end Path

/-! ## Extractors by suffix -/

namespace Extractor

/-- The language of the files with a suffix. -/
def sourceLanguages : List (Text × Text) :=
  [(".py", "python"), (".ts", "typescript"), (".tsx", "typescript"), (".js", "javascript"),
    (".jsx", "javascript")].map fun (suffix, language) => (suffix.toList, language.toList)

/-- The suffixes of scripts are those that have a language. -/
theorem exists_scriptLanguage {suffix : Text} (h : suffix ∈ script.extensions) :
    ∃ language dialect, scriptLanguage? suffix = some (language, dialect) ∧
      (suffix, language) ∈ sourceLanguages := by
  simp only [extensions, List.map_cons, List.map_nil, List.mem_cons, List.not_mem_nil, or_false]
    at h
  rcases h with rfl | rfl | rfl | rfl
  · exact ⟨_, _, rfl, by decide⟩
  · exact ⟨_, _, rfl, by decide⟩
  · exact ⟨_, _, rfl, by decide⟩
  · exact ⟨_, _, rfl, by decide⟩

variable {path : Text}

/-- **The extractor for a suffix reads the file in its language.** For scripts the suffix has to be
what stands behind the last dot of the path. -/
theorem exists_extract {e : Extractor} (h : e.supports path = true)
    (hextension : Path.extension path = Path.suffix path) :
    ∃ language, (Path.lowerSuffix path, language) ∈ sourceLanguages ∧
      ∀ options root content, ∃ outline broken,
        e.extract options root path content = .ok (outline, broken) ∧
        outline.language = language := by
  have hmem : Path.lowerSuffix path ∈ e.extensions := List.contains_iff_mem.1 h
  cases e with
  | python =>
    refine ⟨"python".toList, ?_, fun options root content => ?_⟩
    · rw [List.mem_singleton.1 hmem]
      decide
    · exact ⟨_, false, if_pos h, rfl⟩
  | script =>
    obtain ⟨language, dialect, hlanguage, hsource⟩ := exists_scriptLanguage hmem
    refine ⟨language, hsource, fun options root content => ?_⟩
    rw [Path.lowerSuffix, ← hextension] at hlanguage
    simp only [extract, hlanguage]
    exact ⟨_, _, rfl, rfl⟩

/-- A suffix of some extractor has an extractor. -/
theorem exists_forPath (h : Path.lowerSuffix path ∈ allExtensions all) :
    ∃ e, forPath all path = .ok e ∧ e.supports path = true := by
  rw [allExtensions, Text.mem_sortedSet, List.mem_flatMap] at h
  obtain ⟨e, he, hmem⟩ := h
  cases hfind : all.find? (·.supports path) with
  | none => exact absurd (List.contains_iff_mem.2 hmem) (List.find?_eq_none.1 hfind e he)
  | some e' =>
    have hsupports := List.find?_some hfind
    exact ⟨e', by rw [forPath, hfind], hsupports⟩

end Extractor

/-! ## Scanned files -/

namespace Scan

variable {env : Environment} {options : ScanOptions} {tree : Entry} {given path : Text}
  {found : List Text} {log : List LogRecord}

/-- A scanned file leads on from the root to a path with one of the suffixes. -/
theorem exists_of_mem_files (h : files env options tree given = .ok (found, log))
    (hpath : path ∈ found) :
    ∃ root p, path = Path.append root p ∧ Path.lowerSuffix p ∈ options.extensions := by
  obtain ⟨root, -, h⟩ := exists_of_bind_eq_ok h
  obtain ⟨repository?, -, h⟩ := exists_of_bind_eq_ok h
  cases repository? with
  | none => cases h
  | some repository =>
    cases hdir : repository.isDirectory with
    | false =>
      simp only [hdir] at h
      cases h
    | true =>
      simp only [hdir] at h
      obtain ⟨rules, -, h⟩ := exists_of_bind_eq_ok h
      obtain ⟨rfl, -⟩ := Prod.mk.inj (Except.ok.inj h)
      obtain ⟨judged, hjudged, rfl⟩ := List.mem_map.1 hpath
      obtain ⟨file, hfile, rfl⟩ := List.mem_map.1 (List.mem_filter.1 hjudged).1
      obtain ⟨p, hp, rfl⟩ := List.mem_map.1 hfile
      exact ⟨root, p, rfl, List.contains_iff_mem.1 (List.mem_filter.1 hp).2⟩

/-- No extractor supports files without a suffix. -/
theorem suffix_ne_nil_of_mem_allExtensions
    (h : Path.lowerSuffix path ∈ Extractor.allExtensions Extractor.all) :
    Path.suffix path ≠ [] := by
  intro hnil
  rw [Path.lowerSuffix, hnil, Extractor.allExtensions, Text.mem_sortedSet] at h
  revert h
  decide

/-- **Every scanned file can be parsed.** Where a scan looks for the suffixes of all extractors,
every file that it finds has an extractor, which supports it and makes an outline of it whatever the
file holds. The language is that of the suffix in small letters, which is what stands from the last
dot of the file name on; other dots of the path do not matter. -/
theorem parseFile_of_mem_files (h : files env options tree given = .ok (found, log))
    (hextensions : options.extensions = Extractor.allExtensions Extractor.all)
    (hpath : path ∈ found) :
    ∃ e stem ext language, Extractor.forPath Extractor.all path = .ok e ∧ e.supports path = true ∧
      Path.name path = stem ++ '.' :: ext ∧ '.' ∉ ext ∧
      (Text.lower ('.' :: ext), language) ∈ Extractor.sourceLanguages ∧
      ∀ shown root content, ∃ outline broken,
        e.extract shown root path content = .ok (outline, broken) ∧
          parseFile Extractor.all shown root path content = .ok (outline, broken) ∧
          outline.language = language := by
  obtain ⟨root, p, rfl, hmem⟩ := exists_of_mem_files h hpath
  rw [hextensions] at hmem
  have hp : Path.suffix p ≠ [] := suffix_ne_nil_of_mem_allExtensions hmem
  have hsuffix := Path.suffix_append hp root
  have hextension : Path.extension (Path.append root p) = Path.suffix (Path.append root p) := by
    rw [Path.extension_append hp, hsuffix]
  have hlower : Path.lowerSuffix (Path.append root p) = Path.lowerSuffix p :=
    congrArg Text.lower hsuffix
  obtain ⟨e, he, hsupports⟩ := Extractor.exists_forPath (hlower ▸ hmem)
  obtain ⟨language, hlanguage, hextract⟩ := Extractor.exists_extract hsupports hextension
  obtain ⟨stem, ext, hname, -, hdot, hext⟩ := Path.exists_of_suffix_ne_nil (hsuffix ▸ hp)
  rw [Path.lowerSuffix, hext] at hlanguage
  refine ⟨e, stem, ext, language, he, hsupports, hname, hdot, hlanguage, fun shown root' content =>
    ?_⟩
  obtain ⟨outline, broken, houtline, hlang⟩ := hextract shown root' content
  refine ⟨outline, broken, houtline, ?_, hlang⟩
  rw [parseFile, he]
  exact houtline

/-- A repository with dots in the names of a directory and of a file. -/
def dottedRepository : Entry :=
  .directory [("v1.2.py".toList, .directory [("Main.d.TSX".toList, .file [])])]

/-- The file tree that holds the repository. -/
def dottedTree : Entry := .directory [("r".toList, dottedRepository)]

/-- The directory is named like a source of another language, and the suffix has capital letters. -/
theorem parseFile_of_mem_files_dottedTree :
    files { workingDirectory := "/".toList, time := [] } {} dottedTree "/r".toList =
        .ok (["/r/v1.2.py/Main.d.TSX".toList], []) ∧
      ∀ shown root content, ∃ outline broken,
        parseFile Extractor.all shown root "/r/v1.2.py/Main.d.TSX".toList content =
          .ok (outline, broken) ∧ outline.language = "typescript".toList := by
  have hpath : Environment.realPath { workingDirectory := "/".toList, time := [] } dottedTree
      "/r".toList = .ok "/r".toList := by cbv
  have hrepository : dottedTree.stat "/r".toList = .ok dottedRepository := by cbv
  have hrules : ignoreFileRules dottedTree "/r".toList = .ok [] := by cbv
  have hbelow : dottedRepository.filesBelow (choice (IgnoreRule.ofPatterns defaultExcludes)
      (linksDirectory dottedTree "/r".toList)) [] = ["v1.2.py/Main.d.TSX".toList] := by
    decide +kernel
  have hsuffix : Path.lowerSuffix "v1.2.py/Main.d.TSX".toList ∈
      Extractor.allExtensions Extractor.all := Text.mem_sortedSet.2 (by decide +kernel)
  have hfound : candidates (IgnoreRule.ofPatterns defaultExcludes)
      (Extractor.allExtensions Extractor.all) dottedTree "/r".toList dottedRepository =
        ["/r/v1.2.py/Main.d.TSX".toList] := by
    simp only [candidates, hbelow, List.filter_cons, List.contains_iff_mem, hsuffix, if_true,
      List.filter_nil, List.map_cons, List.map_nil]
    decide +kernel
  have hsource : dottedTree.stat "/r/v1.2.py/Main.d.TSX".toList = .ok (.file []) := by cbv
  have hfiles : files { workingDirectory := "/".toList, time := [] } {} dottedTree "/r".toList =
      .ok (["/r/v1.2.py/Main.d.TSX".toList], []) :=
    files_eq_of_kept hpath hrepository rfl hrules hfound fun path hpath' =>
      verdict_eq_kept_iff.2 ⟨_, List.mem_singleton.1 hpath' ▸ hsource, by decide⟩
  obtain ⟨e, stem, ext, language, -, -, hname, hdot, hlanguage, hparse⟩ :=
    parseFile_of_mem_files hfiles rfl (List.mem_singleton.2 rfl)
  have hcut := Path.cutLastDot?_eq_some_iff.2 ⟨hname, hdot⟩
  have hext : Path.cutLastDot? (Path.name "/r/v1.2.py/Main.d.TSX".toList) =
      some ("Main.d".toList, "TSX".toList) := by decide
  obtain ⟨rfl, rfl⟩ := Prod.mk.inj (Option.some.inj (hext.symm.trans hcut))
  have hlower : Text.lower ('.' :: "TSX".toList) = ".tsx".toList := by decide
  have htypescript : language = "typescript".toList := by
    rw [hlower] at hlanguage
    simpa [Extractor.sourceLanguages] using hlanguage
  refine ⟨hfiles, fun shown root content => ?_⟩
  obtain ⟨outline, broken, -, houtline, houtlineLanguage⟩ := hparse shown root content
  exact ⟨outline, broken, houtline, houtlineLanguage.trans htypescript⟩

end Scan

end CodeIndex
