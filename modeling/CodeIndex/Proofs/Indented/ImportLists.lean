import CodeIndex.Proofs.Indented.Unclosed
import CodeIndex.Proofs.OutlineOptions

/-!
# Scans with and without imports

A scan that looks for imports and one that does not differ at import lines only (`step_imports`):
there the first one lists an import, and jumps over the lines of its list, which the other reads
like any other lines. A line is inert when such a reading leaves the state alone
(`step_of_isInert`): it is a comment, or holds no delimiter of strings and starts neither a class
nor a function at the left margin. Where the lists of all imports consist of inert lines, both scans
find the same functions and classes (`extract_without_imports`); where they do not, a function may
be lost (`extract_imports_mark`).
-/

namespace CodeIndex.Indented

open Text

variable {options : OutlineOptions} {s : ScanState} {n : Nat} {line : Text} {following : List Text}
  {ms : List ImportDecl}

/-! ## Imports are never looked at -/

namespace ScanState

/-- The state with other imports listed. -/
def setImports (s : ScanState) (ms : List ImportDecl) : ScanState := { s with imports := ms }

@[simp] theorem imports_setImports (s : ScanState) (ms : List ImportDecl) :
    (s.setImports ms).imports = ms := rfl

theorem strings_setImports (s : ScanState) (ms : List ImportDecl) :
    (s.setImports ms).strings = s.strings := rfl

theorem current_setImports (s : ScanState) (ms : List ImportDecl) :
    (s.setImports ms).current = s.current := rfl

theorem closeClass_setImports (s : ScanState) (ms : List ImportDecl) :
    (s.setImports ms).closeClass = s.closeClass.setImports ms := by
  obtain ⟨_, current, _⟩ := s
  cases current <;> rfl

theorem attach_setImports (s : ScanState) (ms : List ImportDecl) (t : Text) :
    (s.setImports ms).attach t = (s.attach t).setImports ms := by
  obtain ⟨_, _, _, latest, _⟩ := s
  cases latest with
  | none => rfl
  | some l => cases l <;> rfl

theorem passesStrings_setImports (ms : List ImportDecl) : PassesStrings (·.setImports ms) where
  strings _ := rfl
  latest _ := rfl
  setStrings _ _ := rfl
  attach s t := attach_setImports s ms t

theorem feedTrailing_setImports (s : ScanState) (ms : List ImportDecl) (t : Text) :
    (s.setImports ms).feedTrailing t = (s.feedTrailing t).setImports ms :=
  (passesStrings_setImports ms).feedTrailing s t

theorem fixBodyIndent_setImports (s : ScanState) (ms : List ImportDecl) (line : Text) :
    (s.setImports ms).fixBodyIndent line = (s.fixBodyIndent line).setImports ms := by
  unfold fixBodyIndent
  rw [strings_setImports]
  split <;> rfl

end ScanState

open ScanState

/-- The step with other imports listed. -/
def withImports (ms : List ImportDecl) (r : ScanState × Nat) : ScanState × Nat :=
  (r.1.setImports ms, r.2)

section SetImports

variable {code trailing : Text} {indent : Nat}

theorem stepClass_setImports (s : ScanState) (name : Text) :
    stepClass (s.setImports ms) n name code trailing indent following =
      withImports ms (stepClass s n name code trailing indent following) := by
  unfold stepClass
  rw [closeClass_setImports]
  dsimp only [takePending, withImports]
  rw [← feedTrailing_setImports]
  rfl

theorem stepMember_setImports (s : ScanState) (c : OpenClass) :
    stepMember (s.setImports ms) c n code trailing indent following =
      withImports ms (stepMember s c n code trailing indent following) := by
  unfold stepMember
  split
  · split
    · dsimp only [withImports]
      rw [← feedTrailing_setImports]
      rfl
    · dsimp only [takePending, withImports]
      rw [← feedTrailing_setImports]
      rfl
  · dsimp only [withImports]
    rw [← feedTrailing_setImports]

section Without

variable (hoff : options.imports = false)
include hoff

theorem stepOuter_setImports (s : ScanState) :
    stepOuter options (s.setImports ms) n code trailing indent following =
      withImports ms (stepOuter options s n code trailing indent following) := by
  unfold stepOuter
  rw [hoff]
  split
  · dsimp only [takePending, withImports]
    rw [← feedTrailing_setImports]
    have hclose : ({ s.setImports ms with pending := none } : ScanState).closeClass =
        ({ s with pending := none } : ScanState).closeClass.setImports ms :=
      closeClass_setImports { s with pending := none } ms
    rw [hclose]
    rfl
  · dsimp only [withImports]
    rw [feedTrailing_setImports, closeClass_setImports]
    rfl
  · dsimp only [withImports]
    rw [← feedTrailing_setImports]

theorem stepCode_setImports (s : ScanState) :
    stepCode options (s.setImports ms) n code trailing indent following =
      withImports ms (stepCode options s n code trailing indent following) := by
  have hlatest : ({ s.setImports ms with latest := none } : ScanState) =
      ({ s with latest := none } : ScanState).setImports ms := rfl
  unfold stepCode
  rw [hlatest]
  split
  · exact stepClass_setImports _ _
  · dsimp only [current_setImports]
    split
    · split
      · exact stepMember_setImports _ _
      · exact stepOuter_setImports hoff _
    · exact stepOuter_setImports hoff _

/-- **A step without imports does not look at those listed.** -/
theorem step_setImports (s : ScanState) :
    step options (s.setImports ms) n line following =
      withImports ms (step options s n line following) :=
  (passesStrings_setImports ms).step (fixBodyIndent_setImports s ms line) fun strings _ _ _ =>
    stepCode_setImports hoff { s.fixBodyIndent line with strings }

end Without

end SetImports

/-! ## Lines of imports -/

@[simp] theorem ScanState.latest_closeClass (s : ScanState) : s.closeClass.latest = s.latest := by
  unfold closeClass
  split <;> rfl

/-- A line whose code is no header is not split. -/
theorem splitHeaderString_of_headers_eq_none
    (hclass : classHeader? (splitHeaderString line).1 = none)
    (hdef : defHeader? (splitHeaderString line).1 = none) :
    (splitHeaderString line).1 = line ∧ (splitHeaderString line).2 = [] := by
  rcases splitHeaderString_cases line with hsplit | ⟨head, tail, hsplit, -, hheader⟩
  · rw [hsplit]
    exact ⟨rfl, rfl⟩
  · rw [hsplit] at hclass hdef
    simp [hclass, hdef] at hheader

/-- No string and no class is open, and the last line of code declared nothing. -/
structure AtMargin (s : ScanState) : Prop where
  quote : s.strings.quote = none
  current : s.current = none
  latest : s.latest = none

/-- A step over an import line: `r` lists the import and jumps over the rest of its list, where `r'`
takes the line for one that ends a class and declares nothing. -/
structure ReadsImport (line : Text) (n : Nat) (following : List Text) (r r' : ScanState × Nat) :
    Prop where
  atMargin : AtMargin r'.1
  plain : r'.2 = 0
  reads : ∃ module? names, importLine? line = some (module?, names) ∧
    r = ((r'.1.setImports ((readImport module? names n following).1 :: r'.1.imports)),
      (readImport module? names n following).2)

section Imports

variable {on off : OutlineOptions} (hon : on.imports = true) (hoff : off.imports = false)
  {code trailing : Text} {indent : Nat}
include hon hoff

theorem stepOuter_imports (hquote : s.strings.quote = none) (hlatest : s.latest = none)
    (htrailing : defHeader? code = none → trailing = []) :
    stepOuter on s n code trailing indent following =
        stepOuter off s n code trailing indent following ∨
      ReadsImport code n following (stepOuter on s n code trailing indent following)
        (stepOuter off s n code trailing indent following) := by
  unfold stepOuter
  rw [hon, hoff]
  split
  · exact .inl rfl
  · next hdef =>
    rw [htrailing hdef, feedTrailing_nil]
    dsimp only [Bool.false_eq_true, ↓reduceIte]
    split
    · exact .inl rfl
    · next module? names himport =>
      have hmargin : AtMargin s.closeClass :=
        ⟨by rw [strings_closeClass, hquote], current_closeClass s,
          by rw [latest_closeClass, hlatest]⟩
      exact .inr ⟨hmargin, rfl, module?, names, himport, rfl⟩
  · exact .inl rfl

theorem stepCode_imports (hquote : s.strings.quote = none)
    (htrailing : classHeader? code = none → defHeader? code = none → trailing = []) :
    stepCode on s n code trailing indent following =
        stepCode off s n code trailing indent following ∨
      ReadsImport code n following (stepCode on s n code trailing indent following)
        (stepCode off s n code trailing indent following) := by
  unfold stepCode
  dsimp only
  split
  · exact .inl rfl
  · next hclass =>
    split
    · split
      · exact .inl rfl
      · exact stepOuter_imports hon hoff hquote rfl (htrailing hclass)
    · exact stepOuter_imports hon hoff hquote rfl (htrailing hclass)

/-- **A step that looks for imports is one that does not, or it reads an import.** -/
theorem step_imports (s : ScanState) (n : Nat) (line : Text) (following : List Text) :
    step on s n line following = step off s n line following ∨
      ReadsImport line n following (step on s n line following) (step off s n line following) := by
  unfold step
  dsimp only
  split
  · exact .inl rfl
  · cases hopen : (s.fixBodyIndent line).strings.isOpen with
    | true =>
      -- the line belongs to the open string
      have hbelongs : ((s.fixBodyIndent line).strings.feed line).1 = true := by
        rw [StringTracker.feed_fst,
          show (s.fixBodyIndent line).strings.quote.isSome = true from hopen, Bool.true_or]
      simp only [↓reduceIte, hbelongs]
      exact .inl trivial
    | false =>
      simp only [Bool.false_eq_true, ↓reduceIte]
      split
      · exact .inl rfl
      · next hbelongs =>
        split
        · exact .inl rfl
        · rw [StringTracker.feed_fst, Bool.or_eq_true, not_or, Option.not_isSome_iff_eq_none,
            Option.not_isSome_iff_eq_none] at hbelongs
          have hfeed := StringTracker.feed_of_cutDelimiter?_eq_none hbelongs.1 hbelongs.2
          rw [hfeed]
          refine (stepCode_imports hon hoff hbelongs.1 fun hclass hdef => ?_).imp_right
            fun hreads => ?_
          · exact (splitHeaderString_of_headers_eq_none hclass hdef).2
          · obtain ⟨module?, names, himport, -⟩ := hreads.reads
            obtain ⟨hclass, hdef⟩ := headers_eq_none_of_importLine? himport
            rwa [(splitHeaderString_of_headers_eq_none hclass hdef).1] at hreads ⊢

/-- Imports that are listed stay listed. -/
theorem mem_imports_step {m : ImportDecl} (hm : m ∈ s.imports) :
    m ∈ (step on s n line following).1.imports := by
  have hkept : (step off s n line following).1.imports = s.imports := by
    have hself : step off (s.setImports s.imports) n line following =
        withImports s.imports (step off s n line following) := step_setImports hoff s
    exact congrArg (·.1.imports) hself
  rcases step_imports hon hoff s n line following with heq | hreads
  · rwa [heq, hkept]
  · obtain ⟨module?, names, -, hr⟩ := hreads.reads
    rw [hr, imports_setImports, hkept]
    exact List.mem_cons_of_mem _ hm

theorem mem_imports_scanLines {m : ImportDecl} {lines : List Text} (hm : m ∈ s.imports) :
    m ∈ (scanLines on s n lines).imports := by
  fun_induction scanLines on s n lines with
  | case1 s n => exact hm
  | case2 s n line lines s' k hstep ih =>
    refine ih ?_
    have hkept : m ∈ (step on s n line lines).1.imports := mem_imports_step hon hoff hm
    rwa [hstep] at hkept

end Imports

/-! ## Inert lines -/

/-- The line leaves a scan without imports alone, outside of strings and classes: it is a comment,
or it holds no delimiter of strings and starts neither a class nor a function at the left margin. -/
def isInert (line : Text) : Bool :=
  startsWith ['#'] (trimLeft line) ||
    (cutDelimiter? line).isNone && (classHeader? line).isNone &&
      (indentation line ≠ 0 || (defHeader? line).isNone)

theorem AtMargin.fixBodyIndent_eq (hs : AtMargin s) (line : Text) : s.fixBodyIndent line = s := by
  have hmap (f : OpenClass → OpenClass) : s.mapCurrent f = s := by
    rw [mapCurrent, hs.current, Option.map_none, ← hs.current]
  unfold fixBodyIndent
  split
  · exact hmap _
  · rfl

theorem AtMargin.closeClass_eq (hs : AtMargin s) : s.closeClass = s := by
  rw [closeClass, hs.current]

theorem AtMargin.stepOuter_eq (hs : AtMargin s) (hoff : options.imports = false) {code : Text}
    {indent : Nat} (hdef : indent ≠ 0 ∨ defHeader? code = none) :
    stepOuter options s n code [] indent following = (s, 0) := by
  unfold stepOuter
  rw [hoff, feedTrailing_nil, hs.closeClass_eq]
  split
  · next h hheader =>
    rw [hheader] at hdef
    simp at hdef
  · rfl
  · rfl

theorem AtMargin.stepCode_eq (hs : AtMargin s) (hoff : options.imports = false) {code : Text}
    {indent : Nat} (hclass : classHeader? code = none)
    (hdef : indent ≠ 0 ∨ defHeader? code = none) :
    stepCode options s n code [] indent following = (s, 0) := by
  have hlatest : ({ s with latest := none } : ScanState) = s := by rw [← hs.latest]
  unfold stepCode
  rw [hlatest, hclass]
  dsimp only
  rw [hs.current]
  exact hs.stepOuter_eq hoff hdef

/-- **An inert line leaves the state alone.** -/
theorem step_of_isInert (hoff : options.imports = false) (hs : AtMargin s)
    (h : isInert line = true) : step options s n line following = (s, 0) := by
  have hopen : s.strings.isOpen = false := by
    rw [StringTracker.isOpen, hs.quote, Option.isSome_none]
  cases hidle : isIdle line with
  | true => exact step_of_isIdle hopen hidle
  | false =>
    simp only [isIdle, Bool.or_eq_false_iff, decide_eq_false_iff_not] at hidle
    obtain ⟨hblank, hcomment⟩ := hidle
    simp only [isInert, hcomment, Bool.false_or, Bool.and_eq_true, Option.isNone_iff_eq_none,
      Bool.or_eq_true, decide_eq_true_eq] at h
    obtain ⟨⟨hdelimiter, hclass⟩, hdef⟩ := h
    have hsplit := splitHeaderString_of_cutDelimiter?_eq_none hdelimiter
    rw [step_eq_stepCode hs.quote hsplit hdelimiter hcomment hblank, hs.fixBodyIndent_eq]
    exact hs.stepCode_eq hoff hclass hdef

/-- Inert lines are read without effect. -/
theorem reads_of_isInert (hoff : options.imports = false) (hs : AtMargin s) {block : List Text}
    (h : ∀ line ∈ block, isInert line = true) (n : Nat) : Reads options s n block s := by
  induction block generalizing n with
  | nil => exact .nil s n
  | cons line block ih =>
    obtain ⟨hline, hblock⟩ := List.forall_mem_cons.1 h
    exact .cons (fun _ => step_of_isInert hoff hs hline) (ih hblock (n + 1))

/-! ## Lists of imports -/

/-- The line at `j` belongs to the list of the import at `i`, both counted from zero: the list is
opened after the import, and closed neither there nor on a line between the two. -/
structure InImportList (src : List Text) (i j : Nat) : Prop where
  opened : ∃ line module? names, src[i]? = some line ∧ importLine? line = some (module?, names) ∧
    startsWith ['('] (trimLeft (uncomment names)) = true ∧ ')' ∉ uncomment names
  below : i < j
  unclosed : ∀ k line, i < k → k < j → src[k]? = some line → ')' ∉ uncomment line

/-- Only the last chunk of a list closes it. -/
theorem not_mem_of_lt_importChunks (done following : List Text) : ∀ (k : Nat) (l : Text),
    k + 1 + done.length < (importChunks done following).length → following[k]? = some l →
      ')' ∉ uncomment l := by
  fun_induction importChunks done following with
  | case1 done => simp
  | case2 done line lines chunk hchunk =>
    intro k l hk _
    simp only [List.length_reverse, List.length_cons] at hk
    omega
  | case3 done line lines chunk hchunk ih =>
    intro k l hk hl
    cases k with
    | zero =>
      obtain rfl : line = l := by simpa using hl
      exact hchunk
    | succ k =>
      refine ih k l ?_ (by simpa using hl)
      rw [List.length_cons]
      omega

/-- The lines that an import takes with it are those of its list. -/
theorem inImportList_of_lt_readImport {src : List Text} {i k : Nat} {module? : Option Text}
    {names : Text} (hline : src[i]? = some line)
    (himport : importLine? line = some (module?, names))
    (hk : k < (readImport module? names n (src.drop (i + 1))).2) :
    InImportList src i (i + 1 + k) := by
  simp only [readImport] at hk
  split at hk
  · next hopen =>
    simp only [Bool.and_eq_true, decide_eq_true_eq] at hopen
    refine ⟨⟨line, module?, names, hline, himport, hopen⟩, by omega, fun j l hij hjk hl => ?_⟩
    obtain ⟨d, rfl⟩ : ∃ d, j = i + 1 + d := ⟨j - (i + 1), by omega⟩
    rw [← List.getElem?_drop] at hl
    refine not_mem_of_lt_importChunks [] _ d l ?_ hl
    rw [List.length_nil]
    omega
  · simp at hk

/-- Every line in the lists of some imports is inert. -/
def ListsAreInert (src : List Text) (imports : List ImportDecl) : Prop :=
  ∀ m ∈ imports, ∀ (i j : Nat) (line : Text), m.line = i + 1 → InImportList src i j →
    src[j]? = some line → isInert line = true

/-- A scan goes on behind the lines that its first step takes. -/
theorem scanLines_drop {src : List Text} {i : Nat} (hlt : i < src.length) {r : ScanState × Nat}
    (hstep : step options s (i + 1) src[i] (src.drop (i + 1)) = r) :
    scanLines options s (i + 1) (src.drop i) =
      scanLines options r.1 (i + 1 + r.2 + 1) (src.drop (i + 1 + r.2)) := by
  have hiteration : Iteration options src (s, i) (r.1, i + 1 + r.2) :=
    ⟨src[i], r.2, List.getElem?_eq_getElem hlt, hstep, rfl⟩
  exact hiteration.scanLines_eq

/-- The scan without imports jumps over an inert list too. -/
theorem scanLines_inert (hoff : options.imports = false) {src : List Text} {i k : Nat}
    (hs : AtMargin s) (hk : i + k ≤ src.length)
    (h : ∀ j line, i ≤ j → j < i + k → src[j]? = some line → isInert line = true) :
    scanLines options s (i + 1) (src.drop i) =
      scanLines options s (i + k + 1) (src.drop (i + k)) := by
  have hblock : ∀ line ∈ (src.drop i).take k, isInert line = true := by
    intro line hline
    obtain ⟨d, hd⟩ := List.mem_iff_getElem?.1 hline
    rw [List.getElem?_take] at hd
    split at hd
    · rw [List.getElem?_drop] at hd
      exact h (i + d) line (by omega) (by omega) hd
    · simp at hd
  have hlength : ((src.drop i).take k).length = k := by
    rw [List.length_take_of_le]
    rw [List.length_drop]
    omega
  have hreads := reads_of_isInert hoff hs hblock (i + 1) ((src.drop i).drop k)
  rw [List.take_append_drop, hlength, List.drop_drop] at hreads
  rw [hreads, Nat.add_right_comm]

/-- **Where the lists of all imports are inert, a scan without imports ends alike.** -/
theorem scanLines_without_imports {on off : OutlineOptions} (hon : on.imports = true)
    (hoff : off.imports = false) {src : List Text} {last : ScanState}
    (hinert : ListsAreInert src last.imports) {i : Nat} (hi : i ≤ src.length)
    (hlast : scanLines on s (i + 1) (src.drop i) = last) :
    scanLines off (s.setImports []) (i + 1) (src.drop i) = last.setImports [] := by
  -- by induction on the number of lines left to the scan with imports
  induction hleft : src.length - i using Nat.strong_induction_on generalizing s i with
  | _ left ih =>
    rcases Nat.eq_or_lt_of_le hi with rfl | hlt
    · rw [List.drop_length, scanLines] at hlast ⊢
      rw [hlast]
    · have hoffstep : step off (s.setImports []) (i + 1) src[i] (src.drop (i + 1)) =
          withImports [] (step off s (i + 1) src[i] (src.drop (i + 1))) := step_setImports hoff s
      have hle : (step on s (i + 1) src[i] (src.drop (i + 1))).2 ≤ (src.drop (i + 1)).length :=
        step_le
      rw [List.length_drop] at hle
      rw [scanLines_drop hlt rfl] at hlast
      rw [scanLines_drop hlt hoffstep]
      have hrest := ih _ (by omega) (by omega) hlast rfl
      rcases step_imports hon hoff s (i + 1) src[i] (src.drop (i + 1)) with heq | hreads
      · rw [← heq]
        exact hrest
      · obtain ⟨module?, names, himport, hread⟩ := hreads.reads
        set r := step off s (i + 1) src[i] (src.drop (i + 1)) with hr
        have hmargin : AtMargin (r.1.setImports []) :=
          ⟨hreads.atMargin.quote, hreads.atMargin.current, hreads.atMargin.latest⟩
        rw [hread] at hrest hle hlast
        have hlisted : (readImport module? names (i + 1) (src.drop (i + 1))).1 ∈ last.imports := by
          rw [← hlast]
          exact mem_imports_scanLines hon hoff List.mem_cons_self
        have hlist (j : Nat) (l : Text) (hij : i + 1 ≤ j)
            (hj : j < i + 1 + (readImport module? names (i + 1) (src.drop (i + 1))).2)
            (hl : src[j]? = some l) : isInert l = true := by
          obtain ⟨k, rfl⟩ := Nat.exists_eq_add_of_le hij
          have hk : k < (readImport module? names (i + 1) (src.drop (i + 1))).2 := by omega
          exact hinert _ hlisted i _ l rfl
            (inImportList_of_lt_readImport (List.getElem?_eq_getElem hlt) himport hk) hl
        have hjump := scanLines_inert hoff hmargin (by omega) hlist
        simp only [withImports, hreads.plain, Nat.add_zero]
        rw [hjump]
        exact hrest

/-! ## Outlines -/

/-- **Looking for imports changes nothing but the list of imports**, where all lines in the lists of
these imports are inert. -/
theorem extract_without_imports (options : OutlineOptions) (root path content : Text)
    (h : ListsAreInert (lines content)
      (declarations { options with imports := true } content).imports) :
    Extractor.python.extract { options with imports := false } root path content =
      (Extractor.python.extract { options with imports := true } root path content).map
        fun (outline, broken) => ({ outline with imports := [] }, broken) := by
  have hscan : scanLines { options with imports := false } {} 1 (lines content) =
      (scanLines { options with imports := true } {} 1 (lines content)).setImports [] := by
    refine @scanLines_without_imports {} { options with imports := true }
      { options with imports := false } rfl rfl (lines content) _ (fun m hm => h m ?_) 0
        (Nat.zero_le _) rfl
    rw [declarations, ScanState.declarations, imports_closeClass]
    exact List.mem_reverse.2 hm
  have hdeclarations : declarations { options with imports := false } content =
      { declarations { options with imports := true } content with imports := [] } := by
    rw [declarations, hscan, ScanState.declarations, closeClass_setImports]
    rfl
  cases hsupports : Extractor.python.supports path with
  | true => rw [extract_python hsupports, extract_python hsupports, hdeclarations]; rfl
  | false => simp [Extractor.extract, hsupports, Except.map]

/-- A class below an import with a list of three lines. -/
def listModel : Text :=
  "from m import (\n    a,  # one\n    b,\n)\nclass C:\n    x: int\n".toList

theorem extract_without_imports_listModel :
    ListsAreInert (lines listModel) (declarations { imports := true } listModel).imports ∧
      Extractor.python.extract { imports := false } "/".toList "/m.py".toList listModel =
        (Extractor.python.extract { imports := true } "/".toList "/m.py".toList listModel).map
          fun (outline, broken) => ({ outline with imports := [] }, broken) := by
  have hinert :
      ListsAreInert (lines listModel) (declarations { imports := true } listModel).imports := by
    intro m hm i j line hline hlist hj
    have himports : (declarations { imports := true } listModel).imports.map (·.line) = [1] := by
      decide +kernel
    have hfirst : m.line ∈ [1] := himports ▸ List.mem_map_of_mem hm
    have hclosed : j ≤ 3 := by
      by_contra hlt
      have hi : i < 3 := by
        rw [List.mem_singleton] at hfirst
        omega
      exact hlist.unclosed 3 ")".toList hi (by omega) (by decide +kernel) (by decide +kernel)
    have hlines : ∀ k ∈ [1, 2, 3], (lines listModel)[k]?.map isInert = some true := by
      decide +kernel
    have hmem : j ∈ [1, 2, 3] := by
      have hbelow := hlist.below
      simp only [List.mem_cons, List.not_mem_nil, or_false]
      omega
    simpa [hj] using hlines j hmem
  exact ⟨hinert, extract_without_imports {} _ _ _ hinert⟩

/-- A function below an import whose list holds a delimiter of strings in a comment. -/
def markModel : Text :=
  "from pkg import (\n    name,  # the \"\"\" mark\n)\n\ndef run():\n    pass\n".toList

/-- **A function may be lost where imports are not looked for.** -/
theorem extract_imports_mark :
    (∃ outline, Extractor.python.extract { imports := true } "/".toList "/m.py".toList markModel =
        .ok (outline, false) ∧ outline.functions.map (·.name) = ["run".toList]) ∧
      ∃ outline, Extractor.python.extract { imports := false } "/".toList "/m.py".toList markModel =
        .ok (outline, false) ∧ outline.functions = [] :=
  ⟨⟨_, extract_python (by decide +kernel) _ _ _, by decide +kernel⟩,
    _, extract_python (by decide +kernel) _ _ _, by decide +kernel⟩

end CodeIndex.Indented
