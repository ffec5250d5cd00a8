import CodeIndex.Proofs.Config.Sections
import Mathlib.Data.List.Induction

/-!
# Settings under overrides

Settings that a document gives are valid: they name one of the formats, and files of at least one
byte may be indexed (`isValid_of_ofValue`). One override replaces what it gives, or is refused as a
whole because its format is unknown (`override_of_isAccepted`, `override_of_not_isAccepted`). So
after any sequence of overrides, some of them refused, the settings are still valid, and each
setting that can be overridden is the one that the last accepted override gave
(`overrideAll_eq_lastGiven`).
-/

namespace CodeIndex

namespace OutputFormat

/-- The names of all formats. -/
def names : List Text := all.map name

/-- A text names a format up to the case of its letters and the blanks around them. -/
theorem exists_ofText_of_mem_names {t : Text} (h : Text.lower (Text.trim t) ∈ names) :
    ∃ f, ofText t = .ok f ∧ f.name = Text.lower (Text.trim t) := by
  obtain ⟨g, hg, hname⟩ := List.mem_map.1 h
  cases hfind : all.find? fun f => decide (f.name = Text.lower (Text.trim t)) with
  | none => exact absurd (decide_eq_true hname) (List.find?_eq_none.1 hfind g hg)
  | some f =>
    have hname' := List.find?_some hfind
    exact ⟨f, by rw [ofText, hfind], by simpa using hname'⟩

theorem ofText_of_not_mem_names {t : Text} (h : Text.lower (Text.trim t) ∉ names) :
    ofText t = .error (.unknownFormat t) := by
  have hnone : all.find? (fun f => decide (f.name = Text.lower (Text.trim t))) = none := by
    refine List.find?_eq_none.2 fun f hf hname => h ?_
    rw [← of_decide_eq_true hname]
    exact List.mem_map_of_mem hf
  rw [ofText, hnone]

end OutputFormat

/-! ## One override -/

namespace Overrides

/-- The override is accepted: the format that it gives, if any, is one of the known ones. -/
def isAccepted (o : Overrides) : Bool :=
  o.format.all fun t => OutputFormat.names.contains (Text.lower (Text.trim t))

/-- The name of the format that an override gives, in small letters and without blanks around it. -/
def formatName? (o : Overrides) : Option Text := o.format.map fun t => Text.lower (Text.trim t)

/-- What the last of the accepted overrides that give something gives. -/
def lastGiven {α : Type} (given : Overrides → Option α) (os : List Overrides) : Option α :=
  ((os.filter isAccepted).filterMap given).getLast?

variable {α : Type} {given : Overrides → Option α} {os : List Overrides} {o : Overrides}

theorem lastGiven_concat_of_isAccepted (h : o.isAccepted = true) (default : α) :
    (lastGiven given (os ++ [o])).getD default =
      (given o).getD ((lastGiven given os).getD default) := by
  simp only [lastGiven, List.filter_append, List.filter_cons_of_pos h, List.filter_nil,
    List.filterMap_append]
  cases hgiven : given o with
  | none => simp [hgiven]
  | some a => simp [hgiven]

theorem lastGiven_concat_of_not_isAccepted (h : o.isAccepted = false) :
    lastGiven given (os ++ [o]) = lastGiven given os := by
  simp [lastGiven, List.filter_append, h]

end Overrides

namespace Settings

open Overrides (lastGiven)

variable {s loaded : Settings} {o : Overrides} {os : List Overrides} {root : Text}
  {document : Value}

/-- The settings name a format, and files of at least one byte may be indexed. -/
structure IsValid (s : Settings) : Prop where
  format : s.format.name ∈ ["markdown", "json", "both"].map String.toList
  maxFileSize : 1 ≤ s.maxFileSize

/-- **An accepted override replaces exactly what it gives.** -/
theorem override_of_isAccepted (s : Settings) (h : o.isAccepted = true) :
    ∃ format : OutputFormat, format.name = o.formatName?.getD s.format.name ∧
      s.override o = .ok { s with
        outputPath := o.outputPath.getD s.outputPath
        format := format
        includeImports := o.includeImports.getD s.includeImports } := by
  unfold override
  cases hformat : o.format with
  | none => exact ⟨s.format, by simp [Overrides.formatName?, hformat], rfl⟩
  | some t =>
    simp only [Overrides.isAccepted, hformat, Option.all_some, List.contains_iff_mem] at h
    obtain ⟨format, htext, hname⟩ := OutputFormat.exists_ofText_of_mem_names h
    refine ⟨format, by simp [Overrides.formatName?, hformat, hname], ?_⟩
    simp only [htext]
    rfl

/-- **An override with an unknown format fails**, whatever else it gives. -/
theorem override_of_not_isAccepted (s : Settings) (h : o.isAccepted = false) :
    ∃ t, o.format = some t ∧ s.override o = .error (.unknownFormat t) := by
  cases hformat : o.format with
  | none => simp [Overrides.isAccepted, hformat] at h
  | some t =>
    simp only [Overrides.isAccepted, hformat, Option.all_some, ← Bool.not_eq_true,
      List.contains_iff_mem] at h
    refine ⟨t, rfl, ?_⟩
    simp only [override, hformat, OutputFormat.ofText_of_not_mem_names h]
    rfl

/-! ## Sequences of overrides -/

/-- The settings after some overrides, one after the other. One that fails leaves them as they
were. -/
def overrideAll (s : Settings) (os : List Overrides) : Settings :=
  os.foldl (fun s o => (s.override o).toOption.getD s) s

theorem overrideAll_append (s : Settings) (os more : List Overrides) :
    s.overrideAll (os ++ more) = (s.overrideAll os).overrideAll more :=
  List.foldl_append

theorem overrideAll_cons (s : Settings) (o : Overrides) (os : List Overrides) :
    s.overrideAll (o :: os) = ((s.override o).toOption.getD s).overrideAll os := rfl

/-- **A refused override contributes nothing**, wherever it stands. -/
theorem overrideAll_append_cons_of_not_isAccepted (s : Settings) (os more : List Overrides)
    (h : o.isAccepted = false) : s.overrideAll (os ++ o :: more) = s.overrideAll (os ++ more) := by
  obtain ⟨t, -, hfails⟩ := override_of_not_isAccepted (s.overrideAll os) h
  rw [overrideAll_append, overrideAll_cons, hfails, overrideAll_append]
  rfl

/-- The settings that were loaded, with what the last accepted overrides gave. -/
structure IsLastGiven (loaded : Settings) (os : List Overrides) (s : Settings) : Prop where
  outputPath : s.outputPath = (lastGiven (·.outputPath) os).getD loaded.outputPath
  format : s.format.name = (lastGiven (·.formatName?) os).getD loaded.format.name
  includeImports : s.includeImports = (lastGiven (·.includeImports) os).getD loaded.includeImports
  others : s = { loaded with
    outputPath := s.outputPath, format := s.format, includeImports := s.includeImports }

/-- One override more: an accepted one is the last to give what it gives, any other is no news. -/
theorem IsLastGiven.concat (h : IsLastGiven loaded os s) (o : Overrides) :
    IsLastGiven loaded (os ++ [o]) ((s.override o).toOption.getD s) := by
  cases haccepted : o.isAccepted with
  | false =>
    obtain ⟨t, -, hfails⟩ := override_of_not_isAccepted s haccepted
    rw [hfails]
    simp only [Except.toOption, Option.getD_none]
    constructor
    · rw [Overrides.lastGiven_concat_of_not_isAccepted haccepted, h.outputPath]
    · rw [Overrides.lastGiven_concat_of_not_isAccepted haccepted, h.format]
    · rw [Overrides.lastGiven_concat_of_not_isAccepted haccepted, h.includeImports]
    · exact h.others
  | true =>
    obtain ⟨format, hname, hoverride⟩ := override_of_isAccepted s haccepted
    rw [hoverride]
    simp only [Except.toOption, Option.getD_some]
    constructor
    · rw [Overrides.lastGiven_concat_of_isAccepted haccepted, ← h.outputPath]
    · rw [Overrides.lastGiven_concat_of_isAccepted haccepted, ← h.format, hname]
    · rw [Overrides.lastGiven_concat_of_isAccepted haccepted, ← h.includeImports]
    · rw [h.others]

/-- **After every sequence of overrides the last accepted ones hold.** -/
theorem isLastGiven_overrideAll (loaded : Settings) (os : List Overrides) :
    IsLastGiven loaded os (loaded.overrideAll os) := by
  induction os using List.reverseRecOn with
  | nil => exact ⟨rfl, rfl, rfl, rfl⟩
  | append_singleton os o ih =>
    rw [overrideAll_append]
    exact ih.concat o

/-! ## Settings of a document -/

theorem format_isValid (f : OutputFormat) :
    f.name ∈ ["markdown", "json", "both"].map String.toList := by
  cases f <;> decide

theorem maxFileSize_of_withOutput {output : Value} {s' : Settings}
    (h : s.withOutput output = .ok s') : s'.maxFileSize = s.maxFileSize := by
  obtain ⟨path, format, rfl⟩ := exists_of_withOutput h
  rfl

/-- The section on scanning keeps a positive size or gives one. -/
theorem maxFileSize_of_withScan {scan : Value} {s' : Settings} (hs : 1 ≤ s.maxFileSize)
    (h : s.withScan scan = .ok s') : 1 ≤ s'.maxFileSize := by
  obtain ⟨excludePaths, maxFileSize, rfl, hkept | hgiven⟩ := exists_of_withScan h
  · exact hkept.symm ▸ hs
  · exact hgiven

/-- **The settings of a document are valid.** -/
theorem isValid_of_ofValue (h : ofValue root document = .ok s) : s.IsValid := by
  refine ⟨format_isValid s.format, ?_⟩
  have hdefault : (1 : Int) ≤ defaultMaxFileSize := by decide
  simp only [ofValue] at h
  split at h
  · cases h
    exact hdefault
  · split at h
    · obtain ⟨s₁, houtput, h⟩ := exists_of_bind_eq_ok h
      refine maxFileSize_of_withScan ?_ h
      exact (maxFileSize_of_withOutput houtput).symm ▸ hdefault
    · cases h

/-- Settings that are loaded for a path are those of some document. -/
theorem exists_ofValue_of_load {parse : Yaml.Parser} {tree : Entry} {path : Text}
    (h : load parse tree path = .ok s) : ∃ root document, ofValue root document = .ok s := by
  obtain ⟨file, -, h⟩ := exists_of_bind_eq_ok h
  obtain ⟨root, -, h⟩ := exists_of_bind_eq_ok h
  obtain ⟨found, -, h⟩ := exists_of_bind_eq_ok h
  cases found with
  | false =>
    cases h
    exact ⟨root, .null, rfl⟩
  | true =>
    obtain ⟨bytes, -, h⟩ := exists_of_bind_eq_ok h
    split at h
    · cases h
    · obtain ⟨document, -, h⟩ := exists_of_bind_eq_ok h
      exact ⟨root, document, h⟩

/-- Settings as they are loaded: those of a document, or those that belong to a path for some
parser. -/
inductive IsLoaded (s : Settings) : Prop
  | document {root : Text} {document : Value} (h : ofValue root document = .ok s)
  | path {parse : Yaml.Parser} {tree : Entry} {path : Text} (h : load parse tree path = .ok s)

theorem IsLoaded.isValid (h : IsLoaded s) : s.IsValid := by
  cases h with
  | document h => exact isValid_of_ofValue h
  | path h =>
    obtain ⟨root, document, hvalue⟩ := exists_ofValue_of_load h
    exact isValid_of_ofValue hvalue

/-- **Overrides are all or nothing, the last accepted one holds, and the settings stay valid.** From
loaded settings and after every sequence of overrides: the settings are valid; they are the loaded
ones except for what the last accepted overrides gave; an override with an unknown format fails and
leaves no trace, whatever comes after it; and every other override succeeds. -/
theorem overrideAll_eq_lastGiven (h : IsLoaded loaded) (os : List Overrides) :
    (loaded.overrideAll os).IsValid ∧ IsLastGiven loaded os (loaded.overrideAll os) ∧
      (∀ o : Overrides, o.isAccepted = false →
        (∃ t, o.format = some t ∧ (loaded.overrideAll os).override o = .error (.unknownFormat t)) ∧
          ∀ more, loaded.overrideAll (os ++ o :: more) = loaded.overrideAll (os ++ more)) ∧
      ∀ o : Overrides, o.isAccepted = true →
        (loaded.overrideAll os).override o = .ok (loaded.overrideAll (os ++ [o])) := by
  have hlast := isLastGiven_overrideAll loaded os
  refine ⟨⟨format_isValid _, ?_⟩, hlast, fun o ho => ⟨?_, fun more => ?_⟩, fun o ho => ?_⟩
  · rw [hlast.others]
    exact h.isValid.maxFileSize
  · exact override_of_not_isAccepted _ ho
  · exact overrideAll_append_cons_of_not_isAccepted loaded os more ho
  · obtain ⟨format, -, hoverride⟩ := override_of_isAccepted (loaded.overrideAll os) ho
    rw [overrideAll_append, overrideAll_cons, hoverride]
    rfl

/-- A document with a format in capital letters. -/
def sampleDocument : Value :=
  .map [(.str "output".toList, .map [(.str "format".toList, .str " JSON ".toList)])]

/-- Three overrides, the second of which is refused for its format. -/
def sampleOverrides : List Overrides :=
  [{ outputPath := some "out".toList, format := some " Both".toList },
    { outputPath := some "lost".toList, format := some "xml".toList, includeImports := some false },
    { includeImports := some true }]

/-- The settings that the document gives, and those after the overrides. -/
theorem overrideAll_eq_lastGiven_sample :
    ofValue [] sampleDocument = .ok { root := [], format := .json } ∧
      IsLastGiven { root := [], format := .json } sampleOverrides
        { root := [], outputPath := "out".toList, format := .both, includeImports := true } := by
  have hloaded : ofValue [] sampleDocument = .ok { root := [], format := .json } := rfl
  have hall : overrideAll { root := [], format := .json } sampleOverrides =
      { root := [], outputPath := "out".toList, format := .both, includeImports := true } := rfl
  refine ⟨hloaded, ?_⟩
  rw [← hall]
  exact (overrideAll_eq_lastGiven (.document hloaded) sampleOverrides).2.1

end Settings

end CodeIndex
