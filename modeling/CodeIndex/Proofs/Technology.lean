import CodeIndex.Build
import CodeIndex.Proofs.Extract
import CodeIndex.Proofs.Indented.ImportLayout
import CodeIndex.Proofs.Text.Bracket
import CodeIndex.Proofs.Text.Order

/-!
# Technologies of imports

A technology is listed when the source of an import shows it (`Shows`). The source is the module
after `from`, or else the first name; the other names show nothing. So a file of imports, in
whatever layout, lists what their sources show (`exists_ofContent_imports`), and it matters whether
modules are imported together or one by one: together, only the first one is looked at
(`technologies_together_iff`).
-/

namespace CodeIndex

open Text

/-! ## What a source shows -/

namespace Technology

/-- The source contains a marker of the technology, in letters of either case. -/
def Shows (source label : Text) : Prop :=
  ∃ marker, (marker, label) ∈ markers ∧ marker <:+: lower source

theorem mem_ofSource {source label : Text} : label ∈ ofSource source ↔ Shows source label := by
  simp [ofSource, Shows, contains_eq_true_iff]

theorem ofImports_eq (imports : List ImportDecl) :
    ofImports imports = sortedSet ((imports.map (·.source)).flatMap ofSource) := by
  rw [ofImports, List.flatMap_map]

end Technology

/-! ## Files of imports -/

namespace Indented

variable {options : OutlineOptions} {s : ScanState}

namespace ImportLayout

/-- The module of an import, or else its first name. -/
def source (L : ImportLayout) : Text := (L.module?.getD L.first.2.name).text

/-- Imports one after another are read one after another. -/
theorem exists_reads_flatMap (hon : options.imports = true) (hs : s.strings.quote = none) (n : Nat)
    (Ls : List ImportLayout) :
    ∃ s', Reads options s n (Ls.flatMap (·.lines)) s' ∧
      s'.imports.map (·.source) = (Ls.map source).reverse ++ s.imports.map (·.source) := by
  induction Ls generalizing s n with
  | nil => exact ⟨s, .nil s n, rfl⟩
  | cons L Ls ih =>
    have hread := L.reads_lines hon hs n
    have hs' : s.closeClass.strings.quote = none := by rw [ScanState.strings_closeClass, hs]
    obtain ⟨s', hreads, hsources⟩ :=
      ih (s := { s.closeClass with latest := none, imports := L.record n :: s.imports }) hs'
        (n + L.lines.length)
    refine ⟨s', hread.append hreads, ?_⟩
    rw [hsources, List.map_cons, List.map_cons, List.reverse_cons, List.append_assoc]
    rfl

/-- **The sources of a file of imports, in order.** -/
theorem sources_declarations (hon : options.imports = true) {content : Text}
    {Ls : List ImportLayout} (h : Text.lines content = Ls.flatMap (·.lines)) :
    (declarations options content).imports.map (·.source) = Ls.map source := by
  obtain ⟨s, hread, hsources⟩ := exists_reads_flatMap (s := {}) hon rfl 1 Ls
  have hscan := hread []
  rw [List.append_nil, scanLines] at hscan
  rw [declarations, h, hscan, ScanState.declarations]
  simpa using congrArg List.reverse hsources

/-- The import of some modules on one line. -/
def ofModules (m : Dotted) (ms : List Dotted) : ImportLayout where
  module? := none
  first := (.blanks (.spaces 0), ⟨m, none⟩)
  others := ms.map fun a => (.blanks (.spaces 1), ⟨a, none⟩)
  parentheses := none
  behind := ⟨.spaces 0, none⟩
  oneLine := by
    intro _ w hw
    rcases List.mem_cons.1 hw with rfl | hw
    · exact ⟨_, rfl⟩
    · obtain ⟨a, -, rfl⟩ := List.mem_map.1 hw
      exact ⟨_, rfl⟩

end ImportLayout

/-- The line that imports some modules. -/
def importLine (ms : List Dotted) : Text := "import ".toList ++ commaList (ms.map (·.text))

theorem joined_nameList_blanks (b : Blanks) (m : Dotted) (ms : List Dotted) :
    joined (nameList false ((.blanks b, ⟨m, none⟩) ::
      ms.map fun a => (.blanks (.spaces 1), ⟨a, none⟩))) =
      b.text ++ commaList (m.text :: ms.map (·.text)) := by
  have htext (a : Dotted) : Imported.text ⟨a, none⟩ = a.text := List.append_nil a.text
  induction ms generalizing b m with
  | nil =>
    simp only [List.map_nil, nameList, joined_cons, htext, Bool.false_eq_true, ↓reduceIte]
    simp [joined, ListGap.text, commaList, join]
  | cons a ms ih =>
    rw [List.map_cons, nameList, joined_cons, ih, htext, List.map_cons, commaList_cons_cons]
    simp [ListGap.text, Blanks.spaces]

theorem ImportLayout.lines_ofModules (m : Dotted) (ms : List Dotted) :
    (ofModules m ms).lines = [importLine (m :: ms)] := by
  have hwords : joined (ofModules m ms).words = commaList (m.text :: ms.map (·.text)) :=
    joined_nameList_blanks (.spaces 0) m ms
  have hhead : (ofModules m ms).head ++ (ofModules m ms).opening = "import ".toList := rfl
  have hend : (ofModules m ms).behind.text = [] := rfl
  rw [lines, breakLines_of_blanks (exists_blanks_of_mem_words _ rfl), hwords, hhead, hend,
    List.append_nil]
  rfl

end Indented

/-! ## Technologies of a file of imports -/

namespace FileIndex

open Indented Technology

section Imports

variable {path : Text} (hpath : Extractor.python.supports path = true)
include hpath

theorem exists_ofContent_python (root content : Text) :
    ∃ f, ofContent root path content = .ok (f, []) ∧
      f.findings.technologies = ofImports (declarations { imports := true } content).imports := by
  have hsuffix : Path.lowerSuffix path = ".py".toList := by
    simpa [Extractor.supports, Extractor.extensions] using hpath
  have hscript : Extractor.script.supports path = false := by
    rw [Extractor.supports, hsuffix]
    decide
  have hfor : Extractor.forPath Extractor.all path = .ok .python := by
    simp [Extractor.forPath, Extractor.all, hscript, hpath]
  have hparse := extract_python hpath { imports := true } root content
  have hremarks (outline : Outline) (h : outline.language = "python".toList) :
      remarks outline false content = [] := by
    simp [remarks, Detection.usesSchemaFile, Detection.isScript, h]
  unfold ofContent parseFile
  rw [hfor]
  dsimp only [bind, Except.bind]
  rw [hparse]
  dsimp only
  rw [hremarks _ rfl]
  exact ⟨_, rfl, rfl⟩

/-- **A file of imports lists what their sources show.** -/
theorem exists_ofContent_imports (root : Text) {content : Text} {Ls : List ImportLayout}
    (h : lines content = Ls.flatMap (·.lines)) :
    ∃ f, ofContent root path content = .ok (f, []) ∧
      f.findings.technologies = sortedSet (Ls.flatMap fun L => ofSource L.source) := by
  obtain ⟨f, hf, htechnologies⟩ := exists_ofContent_python hpath root content
  refine ⟨f, hf, ?_⟩
  rw [htechnologies, ofImports_eq, ImportLayout.sources_declarations rfl h, List.flatMap_map]

/-- **Of modules that are imported together, only the first one shows technologies.** A file of the
one line that imports them lists what the first module shows; a file with a line for each lists what
any of them shows. So the lists are the same exactly when the first module shows every technology
that another one shows. -/
theorem technologies_together_iff (root : Text) {together single : Text} {m : Dotted}
    {ms : List Dotted} (htogether : lines together = [importLine (m :: ms)])
    (hsingle : lines single = (m :: ms).map fun a => importLine [a]) :
    ∃ f g, ofContent root path together = .ok (f, []) ∧ ofContent root path single = .ok (g, []) ∧
      (∀ label, label ∈ f.findings.technologies ↔ Shows m.text label) ∧
      (∀ label, label ∈ g.findings.technologies ↔ ∃ a ∈ m :: ms, Shows a.text label) ∧
      (f.findings.technologies = g.findings.technologies ↔
        ∀ a ∈ ms, ∀ label, Shows a.text label → Shows m.text label) := by
  have hlines : lines together = [ImportLayout.ofModules m ms].flatMap (·.lines) := by
    rw [htogether, List.flatMap_singleton, ImportLayout.lines_ofModules]
  have hlines' :
      lines single = ((m :: ms).map (ImportLayout.ofModules · [])).flatMap (·.lines) := by
    rw [hsingle, List.flatMap_map, List.map_eq_flatMap]
    simp only [ImportLayout.lines_ofModules]
  obtain ⟨f, hf, htechnologies⟩ := exists_ofContent_imports hpath root hlines
  obtain ⟨g, hg, htechnologies'⟩ := exists_ofContent_imports hpath root hlines'
  have hsource (a : Dotted) (as : List Dotted) : (ImportLayout.ofModules a as).source = a.text :=
    rfl
  rw [List.flatMap_singleton, hsource] at htechnologies
  rw [List.flatMap_map] at htechnologies'
  simp only [hsource] at htechnologies'
  refine ⟨f, g, hf, hg, ?_, ?_, ?_⟩
  · intro label
    rw [htechnologies, mem_sortedSet, mem_ofSource]
  · intro label
    simp only [htechnologies', mem_sortedSet, List.mem_flatMap, mem_ofSource]
  · rw [htechnologies, htechnologies', sortedSet_eq_iff]
    simp only [List.mem_flatMap, mem_ofSource, List.exists_mem_cons_iff]
    constructor
    · intro h a ha label hlabel
      exact (h label).2 (.inr ⟨a, ha, hlabel⟩)
    · intro h label
      constructor
      · exact .inl
      · rintro (hlabel | ⟨a, ha, hlabel⟩)
        · exact hlabel
        · exact h a ha label hlabel

end Imports

/-- Two modules, of which the second one shows a technology. -/
def osFlask : Dotted × Dotted :=
  (⟨"os".toList, by decide, by decide +kernel⟩, ⟨"flask".toList, by decide, by decide +kernel⟩)

theorem technologies_together_iff_osFlask :
    ∃ f g, ofContent "/".toList "/m.py".toList "import os, flask\n".toList = .ok (f, []) ∧
      ofContent "/".toList "/m.py".toList "import os\nimport flask\n".toList = .ok (g, []) ∧
      (∀ label, label ∈ f.findings.technologies ↔ Shows "os".toList label) ∧
      (∀ label, label ∈ g.findings.technologies ↔
        ∃ a ∈ [osFlask.1, osFlask.2], Shows a.text label) ∧
      (f.findings.technologies = g.findings.technologies ↔
        ∀ a ∈ [osFlask.2], ∀ label, Shows a.text label → Shows "os".toList label) := by
  have hpath : Extractor.python.supports "/m.py".toList = true := by decide +kernel
  have htogether : lines "import os, flask\n".toList = [importLine [osFlask.1, osFlask.2]] := by
    decide +kernel
  have hsingle : lines "import os\nimport flask\n".toList =
      [osFlask.1, osFlask.2].map fun a => importLine [a] := by decide +kernel
  exact technologies_together_iff hpath "/".toList htogether hsingle

/-- **A second module on the line is not looked at.** -/
theorem technologies_secondModule :
    ∃ f g, ofContent "/".toList "/m.py".toList "import os, flask\n".toList = .ok (f, []) ∧
      ofContent "/".toList "/m.py".toList "import os\nimport flask\n".toList = .ok (g, []) ∧
      f.findings.technologies = [] ∧ g.findings.technologies = ["Flask".toList] := by
  have hpath : Extractor.python.supports "/m.py".toList = true := by decide +kernel
  obtain ⟨f, hf, htechnologies⟩ :=
    exists_ofContent_python hpath "/".toList "import os, flask\n".toList
  obtain ⟨g, hg, htechnologies'⟩ :=
    exists_ofContent_python hpath "/".toList "import os\nimport flask\n".toList
  refine ⟨f, g, hf, hg, ?_, ?_⟩
  · rw [htechnologies]
    decide +kernel
  · rw [htechnologies']
    decide +kernel

end FileIndex

end CodeIndex
