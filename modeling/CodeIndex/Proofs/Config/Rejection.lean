import CodeIndex.Proofs.Config.Overrides
import CodeIndex.Proofs.Utf8

/-!
# Documents that are rejected

Whether a configuration document is rejected is decided by three values of it: the root, which has
to be a mapping or null, the name of the format, and the size limit. `Value.IsRejected` says this of
a document without reference to how settings are read, and `Settings.IsReadFrom` says which setting
a document gives and which stays at its default.

* `ofValue_cases`: a document with a usable root is rejected or read.
* `load_rejects_iff`: what is loaded for a path is an error of the configuration exactly when the
  document is rejected, and otherwise settings that are read from it. This holds for every parser;
  nothing is assumed of it but the value that it gives the file.

Two things are left aside: an empty value of another kind than a mapping, which is read like null,
and integers with too many digits to be written as a text.
-/

namespace CodeIndex

namespace Value

/-- The text of a text or of a number. -/
inductive IsWritten : Value → Text → Prop
  | str (s : Text) : IsWritten (.str s) s
  | int (n : Int) : IsWritten (.int n) (Text.ofInt n)
  | float (x : Float) : IsWritten (.float x) (Decimal.ofFloat x)

/-- The integer of an integer, or of a text that can be read as one. -/
inductive IsCounted : Value → Int → Prop
  | int (n : Int) : IsCounted (.int n) n
  | str {s : Text} {n : Int} (h : parseInt? s = some n) : IsCounted (.str s) n

theorem asText?_eq_some_iff {v : Value} {t : Text} : v.asText? = some t ↔ v.IsWritten t := by
  constructor
  · intro h
    cases v with
    | str s => cases h; exact .str t
    | int n => cases h; exact .int n
    | float x => cases h; exact .float x
    | _ => cases h
  · rintro (_ | _ | _) <;> rfl

theorem asInt?_eq_some_iff {v : Value} {n : Int} : v.asInt? = some n ↔ v.IsCounted n := by
  constructor
  · intro h
    cases v with
    | int m => cases h; exact .int n
    | str s => exact .str h
    | _ => cases h
  · rintro (_ | h)
    · rfl
    · exact h

/-- The value of a key in a section of a document. There is none if the section is no mapping. -/
def setting? (v : Value) (sec key : String) : Option Value := (v.get? sec).bind (get? key)

/-- **A document to reject**: its root is neither a mapping nor null, it names a format that there
is not, or it gives a size limit that is not positive. -/
inductive IsRejected (v : Value) : Prop
  | root (hnull : v ≠ .null) (hmap : ∀ entries, v ≠ .map entries)
  | format {w : Value} {t : Text} (hw : v.setting? "output" "format" = some w) (ht : w.IsWritten t)
      (hname : Text.lower (Text.trim t) ∉ OutputFormat.names)
  | size {w : Value} {n : Int} (hw : v.setting? "scan" "max_file_size" = some w)
      (hn : w.IsCounted n) (hsize : n ≤ 0)

/-- Every integer that a setting writes as a text has few enough digits. -/
structure IsWritableDocument (v : Value) : Prop where
  path : (v.setting? "output" "path").all isWritable = true
  format : (v.setting? "output" "format").all isWritable = true
  excludePaths : ((v.setting? "scan" "exclude_paths").all fun w => w.elements.all isWritable) = true

end Value

namespace Settings

variable {s : Settings} {v : Value} {root : Text} {parse : Yaml.Parser} {tree : Entry} {path : Text}

/-- The settings that a document gives, each with its default where the document has no value of a
usable kind. A value for the patterns to exclude counts whatever its kind. -/
structure IsReadFrom (v : Value) (root : Text) (s : Settings) : Prop where
  root : s.root = root
  outputPath :
    s.outputPath = ((v.setting? "output" "path").bind Value.asText?).getD defaultOutputPath
  format : s.format.name =
    (((v.setting? "output" "format").bind Value.asText?).map fun t => Text.lower (Text.trim t)).getD
      OutputFormat.markdown.name
  includeClasses : s.includeClasses = ((v.setting? "index" "classes").bind Value.asBool?).getD true
  includeInterfaces :
    s.includeInterfaces = ((v.setting? "index" "interfaces").bind Value.asBool?).getD true
  includeImports : s.includeImports = ((v.setting? "index" "imports").bind Value.asBool?).getD false
  excludePaths :
    s.excludePaths = ((v.setting? "scan" "exclude_paths").map Value.asTexts).getD defaultExcludes
  maxFileSize :
    s.maxFileSize = ((v.setting? "scan" "max_file_size").bind Value.asInt?).getD defaultMaxFileSize

/-! ## Single sections -/

theorem get?_section? (v : Value) (sec key : String) :
    (section? sec v).get? key = v.setting? sec key := by
  unfold section? Value.setting?
  cases v.get? sec with
  | none => rfl
  | some w => rfl

theorem textOf?_of_isWritable {w : Option Value} (h : w.all Value.isWritable = true) :
    textOf? w = .ok (w.bind Value.asText?) := if_pos h

theorem textsOr_of_isWritable {default : List Text} {w : Option Value}
    (h : (w.all fun w => w.elements.all Value.isWritable) = true) :
    textsOr default w = .ok ((w.map Value.asTexts).getD default) := by
  cases w with
  | none => rfl
  | some w => exact if_pos h

/-- **The section on output** is refused for a format that there is not, and otherwise read. -/
theorem withOutput_cases (s : Settings) (output : Value)
    (hpath : (output.get? "path").all Value.isWritable = true)
    (hformat : (output.get? "format").all Value.isWritable = true) :
    (∃ t, (output.get? "format").bind Value.asText? = some t ∧
        Text.lower (Text.trim t) ∉ OutputFormat.names ∧
        s.withOutput output = .error (.config (.unknownFormat t))) ∨
      ∃ format : OutputFormat,
        (∀ t, (output.get? "format").bind Value.asText? = some t →
          Text.lower (Text.trim t) ∈ OutputFormat.names) ∧
        format.name = (((output.get? "format").bind Value.asText?).map fun t =>
          Text.lower (Text.trim t)).getD s.format.name ∧
        s.withOutput output = .ok { s with
          outputPath := ((output.get? "path").bind Value.asText?).getD s.outputPath
          format := format } := by
  simp only [withOutput, textOf?_of_isWritable hpath, textOf?_of_isWritable hformat, bind,
    Except.bind]
  cases (output.get? "format").bind Value.asText? with
  | none => exact .inr ⟨s.format, fun _ ht => (nomatch ht), rfl, rfl⟩
  | some t =>
    by_cases h : Text.lower (Text.trim t) ∈ OutputFormat.names
    · obtain ⟨format, htext, hname⟩ := OutputFormat.exists_ofText_of_mem_names h
      refine .inr ⟨format, ?_, hname, ?_⟩
      · intro t' ht'
        cases ht'
        exact h
      · simp only [formatOr, htext, Except.mapError]
        rfl
    · refine .inl ⟨t, rfl, h, ?_⟩
      simp only [formatOr, OutputFormat.ofText_of_not_mem_names h, Except.mapError]

/-- **The section on scanning** is refused for a size limit that is not positive, and otherwise
read. -/
theorem withScan_cases (s : Settings) (scan : Value)
    (hexclude : ((scan.get? "exclude_paths").all fun w => w.elements.all Value.isWritable) = true) :
    (∃ n, (scan.get? "max_file_size").bind Value.asInt? = some n ∧ n ≤ 0 ∧
        s.withScan scan = .error (.config .sizeNotPositive)) ∨
      (∀ n, (scan.get? "max_file_size").bind Value.asInt? = some n → 0 < n) ∧
        s.withScan scan = .ok { s with
          excludePaths := ((scan.get? "exclude_paths").map Value.asTexts).getD s.excludePaths
          maxFileSize := ((scan.get? "max_file_size").bind Value.asInt?).getD s.maxFileSize } := by
  simp only [withScan, textsOr_of_isWritable hexclude, bind, Except.bind]
  cases (scan.get? "max_file_size").bind Value.asInt? with
  | none => exact .inr ⟨fun _ hn => (nomatch hn), rfl⟩
  | some n =>
    by_cases h : n ≤ 0
    · refine .inl ⟨n, rfl, h, ?_⟩
      simp only [sizeOr, if_pos h, Except.mapError]
    · refine .inr ⟨?_, ?_⟩
      · intro m hm
        cases hm
        omega
      · simp only [sizeOr, if_neg h, Except.mapError]
        rfl

/-! ## Whole documents -/

/-- An empty mapping is read like any other. -/
theorem ofValue_map (root : Text) (entries : List (Value × Value)) :
    ofValue root (.map entries) = (do
      let s ← withOutput { root } (section? "output" (.map entries))
      (s.withIndex (section? "index" (.map entries))).withScan
        (section? "scan" (.map entries))) := by
  cases entries with
  | nil => rfl
  | cons e entries => rfl

/-- **A mapping is rejected or read.** -/
theorem ofValue_map_cases {entries : List (Value × Value)} (hv : v = .map entries)
    (h : v.IsWritableDocument) (root : Text) :
    (∃ e, ofValue root v = .error (.config e) ∧ v.IsRejected) ∨
      ∃ s, ofValue root v = .ok s ∧ s.IsReadFrom v root ∧ ¬ v.IsRejected := by
  have hofValue := ofValue_map root entries
  rw [← hv] at hofValue
  rw [hofValue]
  have houtput := withOutput_cases { root } (section? "output" v)
    (by rw [get?_section?]; exact h.path) (by rw [get?_section?]; exact h.format)
  simp only [get?_section?] at houtput
  obtain ⟨t, ht, hname, herror⟩ | ⟨format, hknown, hname, hok⟩ := houtput
  · obtain ⟨w, hw, ht⟩ := Option.bind_eq_some_iff.1 ht
    refine .inl ⟨.unknownFormat t, ?_, .format hw (Value.asText?_eq_some_iff.1 ht) hname⟩
    rw [herror]
    rfl
  rw [hok]
  -- the section on the index is never refused
  set s₁ : Settings := Settings.withIndex _ (section? "index" v) with hs₁
  have hscan := withScan_cases s₁ (section? "scan" v)
    (by rw [get?_section?]; exact h.excludePaths)
  simp only [get?_section?] at hscan
  obtain ⟨n, hn, hsize, herror⟩ | ⟨hpos, hread⟩ := hscan
  · obtain ⟨w, hw, hn⟩ := Option.bind_eq_some_iff.1 hn
    exact .inl ⟨.sizeNotPositive, herror, .size hw (Value.asInt?_eq_some_iff.1 hn) hsize⟩
  · refine .inr ⟨_, hread, ?_, ?_⟩
    · constructor <;> simp [hs₁, withIndex, get?_section?, hname]
    · rintro (⟨-, hmap⟩ | ⟨hw, ht, hunknown⟩ | ⟨hw, hn, hsize⟩)
      · exact hmap entries hv
      · refine hunknown (hknown _ ?_)
        exact Option.bind_eq_some_iff.2 ⟨_, hw, Value.asText?_eq_some_iff.2 ht⟩
      · have := hpos _ (Option.bind_eq_some_iff.2 ⟨_, hw, Value.asInt?_eq_some_iff.2 hn⟩)
        omega

/-- **A document with a usable root is rejected or read.** -/
theorem ofValue_cases (hroot : v.isEmpty = true → v = .null ∨ ∃ entries, v = .map entries)
    (h : v.IsWritableDocument) (root : Text) :
    (∃ e, ofValue root v = .error (.config e) ∧ v.IsRejected) ∨
      ∃ s, ofValue root v = .ok s ∧ s.IsReadFrom v root ∧ ¬ v.IsRejected := by
  by_cases hmap : ∃ entries, v = .map entries
  · obtain ⟨entries, hv⟩ := hmap
    exact ofValue_map_cases hv h root
  cases hempty : v.isEmpty with
  | true =>
    obtain rfl : v = .null := (hroot hempty).resolve_right hmap
    refine .inr ⟨{ root }, rfl, by constructor <;> rfl, ?_⟩
    rintro (⟨hnull, -⟩ | ⟨hw, -, -⟩ | ⟨hw, -, -⟩)
    · exact hnull rfl
    · cases hw
    · cases hw
  | false =>
    have hrejected : v.IsRejected := by
      refine .root ?_ fun entries hv => hmap ⟨entries, hv⟩
      rintro rfl
      cases hempty
    refine .inl ⟨.notMapping, ?_, hrejected⟩
    cases v with
    | map entries => exact absurd ⟨entries, rfl⟩ hmap
    | _ => simp [ofValue, hempty, throw, throwThe, MonadExceptOf.throw]

/-- The configuration file that belongs to a path can be read, and for a parser it holds a document.
A file of blanks holds null. -/
inductive HoldsDocument (parse : Yaml.Parser) (tree : Entry) (path root : Text) (v : Value) : Prop
  | intro {file content : Text} {bytes : List UInt8} (hfile : filePath tree path = .ok file)
      (hroot : tree.resolve (Path.parent file) = .ok root)
      (hexists : tree.pathExists file = .ok true) (hbytes : tree.readFile file = .ok bytes)
      (hcontent : Utf8.decode bytes = .ok content)
      (hdocument : readDocument parse (Path.name file) (Text.normalizeLineEnds content) = .ok v)

theorem load_eq_ofValue (h : HoldsDocument parse tree path root v) :
    load parse tree path = ofValue root v := by
  obtain ⟨hfile, hroot, hexists, hbytes, hcontent, hdocument⟩ := h
  simp only [load, hfile, hroot, hexists, hbytes, hcontent, hdocument, ResolveError.lift,
    FileError.lift, bind, Except.bind, ↓reduceIte]

/-- **What is loaded is an error of the configuration exactly when the document is rejected**, and
in every other case it is settings, with defaults for what the document does not give. -/
theorem load_rejects_iff (h : HoldsDocument parse tree path root v)
    (hroot : v.isEmpty = true → v = .null ∨ ∃ entries, v = .map entries)
    (hwritable : v.IsWritableDocument) :
    ((∃ e, load parse tree path = .error (.config e)) ↔ v.IsRejected) ∧
      (¬ v.IsRejected → ∃ s, load parse tree path = .ok s ∧ s.IsReadFrom v root) := by
  rw [load_eq_ofValue h]
  obtain ⟨e, herror, hrejected⟩ | ⟨s, hok, hread, hnot⟩ := ofValue_cases hroot hwritable root
  · exact ⟨⟨fun _ => hrejected, fun _ => ⟨e, herror⟩⟩, fun hnot => absurd hrejected hnot⟩
  · refine ⟨⟨?_, fun hrejected => absurd hrejected hnot⟩, fun _ => ⟨s, hok, hread⟩⟩
    rintro ⟨e, herror⟩
    rw [hok] at herror
    cases herror

/-! ## Two documents -/

/-- A repository at `/r` with a configuration file. -/
def configuredTree (text : String) : Entry :=
  .directory [("r".toList, .directory [(settingsFileName, .file (Utf8.encode text.toList))])]

/-- A document with an integer for one setting. -/
def ofSetting (sec key : String) (n : Int) : Value :=
  .map [(.str sec.toList, .map [(.str key.toList, .int n)])]

/-- Whether a value is the document with an integer for one setting can be computed, unlike whether
two values are equal. -/
def isSetting (sec key : String) (n : Int) : Value → Bool
  | .map [(.str a, .map [(.str b, .int m)])] => a = sec.toList && b = key.toList && m = n
  | _ => false

theorem eq_of_isSetting {sec key : String} {n : Int} (h : isSetting sec key n v = true) :
    v = ofSetting sec key n := by
  unfold isSetting at h
  split at h
  · simp only [Bool.and_eq_true, decide_eq_true_eq] at h
    rw [h.1.1, h.1.2, h.2]
    rfl
  · cases h

/-- The value is an empty list. -/
def isEmptyList : Value → Bool
  | .list [] => true
  | _ => false

theorem eq_of_isEmptyList (h : isEmptyList v = true) : v = .list [] := by
  unfold isEmptyList at h
  split at h
  · rfl
  · cases h

/-- The file of a repository holds the value that a test on what its text is read as fixes. -/
theorem holdsDocument_of_test (parse : Yaml.Parser) (text : String) {test : Value → Bool}
    (htest : ∀ w, test w = true → w = v)
    (hdocument : (readDocument parse settingsFileName
      (Text.normalizeLineEnds text.toList)).toOption.any test = true) :
    HoldsDocument parse (configuredTree text) "/r".toList "/r".toList v := by
  have hread :
      readDocument parse settingsFileName (Text.normalizeLineEnds text.toList) = .ok v := by
    generalize readDocument parse settingsFileName (Text.normalizeLineEnds text.toList) = document
      at hdocument
    cases document with
    | error e => cases hdocument
    | ok w => rw [htest w hdocument]
  have hcontent := Utf8.decode_encode text.toList
  -- the tree is evaluated with the bytes left open
  unfold configuredTree
  generalize Utf8.encode text.toList = bytes at hcontent
  have hfile : filePath (.directory [("r".toList, .directory [(settingsFileName, .file bytes)])])
      "/r".toList = .ok "/r/.omen.yml".toList := by cbv
  exact .intro hfile (by cbv) (by cbv) (by cbv) hcontent hread

theorem holdsDocument_ofSetting (parse : Yaml.Parser) (text sec key : String) (n : Int)
    (hdocument : (readDocument parse settingsFileName
      (Text.normalizeLineEnds text.toList)).toOption.any (isSetting sec key n) = true) :
    HoldsDocument parse (configuredTree text) "/r".toList "/r".toList (ofSetting sec key n) :=
  holdsDocument_of_test parse text (fun _ => eq_of_isSetting) hdocument

/-- A negative size limit is an error of the configuration. -/
theorem load_rejects_iff_negativeSize :
    HoldsDocument Yaml.load (configuredTree "scan: \x7bmax_file_size: -7\x7d") "/r".toList
        "/r".toList (ofSetting "scan" "max_file_size" (-7)) ∧
      (ofSetting "scan" "max_file_size" (-7)).IsRejected ∧
      ∃ e, load Yaml.load (configuredTree "scan: \x7bmax_file_size: -7\x7d") "/r".toList =
        .error (.config e) := by
  have hholds := holdsDocument_ofSetting Yaml.load "scan: \x7bmax_file_size: -7\x7d" "scan"
    "max_file_size" (-7) (by decide +kernel)
  have hrejected : (ofSetting "scan" "max_file_size" (-7)).IsRejected :=
    .size rfl (.int (-7)) (by omega)
  refine ⟨hholds, hrejected, ?_⟩
  exact (load_rejects_iff hholds (fun _ => .inr ⟨_, rfl⟩) ⟨rfl, rfl, rfl⟩).1.2 hrejected

/-- **A value of an unusable kind does not always leave the default**: a number for the patterns to
exclude excludes nothing. Nor is every root that is no mapping rejected: an empty list is read like
a document without settings. -/
theorem load_excludes_number :
    (HoldsDocument Yaml.load (configuredTree "scan: \x7bexclude_paths: 5\x7d") "/r".toList
        "/r".toList (ofSetting "scan" "exclude_paths" 5) ∧
      load Yaml.load (configuredTree "scan: \x7bexclude_paths: 5\x7d") "/r".toList =
        .ok { root := "/r".toList, excludePaths := [] } ∧ defaultExcludes ≠ []) ∧
    HoldsDocument Yaml.load (configuredTree "[]") "/r".toList "/r".toList (.list []) ∧
      (Value.list []).IsRejected ∧
      load Yaml.load (configuredTree "[]") "/r".toList = .ok { root := "/r".toList } := by
  have hnumber := holdsDocument_ofSetting Yaml.load "scan: \x7bexclude_paths: 5\x7d" "scan"
    "exclude_paths" 5 (by decide +kernel)
  have hlist : HoldsDocument Yaml.load (configuredTree "[]") "/r".toList "/r".toList (.list []) :=
    holdsDocument_of_test Yaml.load "[]" (fun _ => eq_of_isEmptyList) (by decide +kernel)
  refine ⟨⟨hnumber, ?_, by decide⟩, hlist, .root (by simp) (by simp), ?_⟩
  · rw [load_eq_ofValue hnumber]
    rfl
  · rw [load_eq_ofValue hlist]
    rfl

end Settings

end CodeIndex
