import CodeIndex.Proofs.Indented.Placement
import CodeIndex.Proofs.Text.OpenString

/-!
# Constructs that are never closed

A call is unclosed when its parenthesis is still open at the end of the source (`Unclosed`). The
readers of base lists and of signatures then take no line beyond the header
(`baseLines_of_unclosed`, `readSignature_of_unclosed`), so the scan goes on with the very next line,
and what is declared further down is recorded. The readers of column calls and of import lists take
all lines that are left (`readAttribute_of_unclosed`, `readImport_of_unclosed`), and nothing below
them is recorded. `unclosed_recovery` says both for a run of the scan.
-/

namespace CodeIndex.Indented

open Text

variable {options : OutlineOptions} {s : ScanState} {n : Nat} {line : Text} {following : List Text}

/-- The parenthesis that opens the call is open at the end of its line, and at the end of each of
the following lines. -/
def Unclosed (call : Text) (following : List Text) : Prop :=
  ∀ read, read <+: following → 0 < parenDepth (call ++ read.flatten)

/-! ## Look-ahead -/

/-- A call that is not unclosed is closed at the end of one of the following lines. -/
theorem exists_closesAtLast_of_not_unclosed {call : Text} (h : ¬ Unclosed call following) :
    ∃ read, read <+: following ∧ ClosesAtLast (parenDepth call) read := by
  refine (closesAtLast_or_opened _ following).resolve_right fun hopened => h fun read hread => ?_
  rw [parenDepth_append]
  exact hopened read hread

/-- A balancer gets done at the end of the first line where no parenthesis is open. -/
theorem isDone_balance_eq_false_iff {b : Balancer} (hb : b.seenOpen = true) (fed : Nat) :
    (balance b fed following).1.isDone = false ↔
      ∀ read, read <+: following → 0 < b.depth + parenDepth read.flatten := by
  fun_induction balance b fed following with
  | case1 b fed =>
    rw [Balancer.isDone_eq_false_iff hb]
    simp
  | case2 b fed line lines hdone =>
    refine ⟨fun h => absurd hdone (by simp [h]), fun h => ?_⟩
    rw [Balancer.isDone_eq_false_iff hb]
    simpa using h [] List.nil_prefix
  | case3 b fed line lines hdone ih =>
    rw [Bool.not_eq_true, Balancer.isDone_eq_false_iff hb] at hdone
    rw [ih (Balancer.seenOpen_feed hb line), Balancer.depth_feed]
    constructor
    · intro h read hread
      cases read with
      | nil => simpa using hdone
      | cons first read =>
        obtain ⟨rfl, hlines⟩ := List.cons_prefix_cons.1 hread
        have := h read hlines
        rw [List.flatten_cons, parenDepth_append]
        omega
    · intro h read hread
      have := h (line :: read) (List.cons_prefix_cons.2 ⟨rfl, hread⟩)
      rw [List.flatten_cons, parenDepth_append] at this
      omega

/-- A balancer that does not get done has read all lines. -/
theorem fed_balance_of_not_isDone {b : Balancer} {fed : Nat}
    (h : (balance b fed following).1.isDone = false) :
    (balance b fed following).2 = fed + following.length := by
  fun_induction balance b fed following with
  | case1 b fed => rfl
  | case2 b fed line lines hdone => exact absurd hdone (by simp [h])
  | case3 b fed line lines hdone ih =>
    rw [ih h, List.length_cons]
    omega

/-- **The look-ahead fails exactly on unclosed calls.** -/
theorem closed_collectCall_eq_false_iff {t : Text} :
    (collectCall ('(' :: t) following).closed = false ↔ Unclosed ('(' :: t) following := by
  have := @isDone_balance_eq_false_iff following _ (Balancer.seenOpen_feed_cons {} t) 0
  rw [Balancer.depth_feed_empty] at this
  simp only [Unclosed, parenDepth_append]
  exact this

theorem closed_collectCall_iff {t : Text} :
    (collectCall ('(' :: t) following).closed = true ↔ ¬ Unclosed ('(' :: t) following := by
  rw [← closed_collectCall_eq_false_iff, Bool.not_eq_false]

theorem consumed_collectCall_of_unclosed {t : Text} (h : Unclosed ('(' :: t) following) :
    (collectCall ('(' :: t) following).consumed = following.length := by
  have := fed_balance_of_not_isDone (closed_collectCall_eq_false_iff.2 h)
  rwa [Nat.zero_add] at this

/-- An unclosed base list takes no line. -/
theorem baseLines_of_unclosed {code before rest : Text}
    (hcut : cut? ['('] code = some (before, rest)) (h : Unclosed ('(' :: rest) following) :
    baseLines code following = 0 := by
  rw [baseLines, hcut]
  simp [closed_collectCall_eq_false_iff.2 h]

/-- An unclosed signature takes no line, and is read from the line of its header. -/
theorem readSignature_of_unclosed {t : Text} (h : Unclosed ('(' :: t) following) :
    readSignature ('(' :: t) following = (Signature.ofText ('(' :: t), 0) := by
  rw [readSignature]
  simp [closed_collectCall_eq_false_iff.2 h]

/-- An unclosed column call takes all lines. -/
theorem readAttribute_of_unclosed {name t : Text}
    (hl : columnAttribute? line = some (name, '(' :: t)) (h : Unclosed ('(' :: t) following) :
    (readAttribute line following).2 = following.length := by
  rw [readAttribute, hl]
  exact consumed_collectCall_of_unclosed h

theorem length_importChunks_of_not_mem (done : List Text)
    (h : ∀ line ∈ following, ')' ∉ uncomment line) :
    (importChunks done following).length = done.length + following.length := by
  fun_induction importChunks done following with
  | case1 done => simp
  | case2 done line lines chunk hchunk => exact absurd hchunk (h line (by simp))
  | case3 done line lines chunk _ ih =>
    rw [ih fun l hl => h l (by simp [hl]), List.length_cons, List.length_cons]
    omega

/-- An unclosed import list takes all lines. -/
theorem readImport_of_unclosed {module? : Option Text} {names : Text}
    (hopen : startsWith ['('] (trimLeft (uncomment names)) = true) (hfirst : ')' ∉ uncomment names)
    (h : ∀ line ∈ following, ')' ∉ uncomment line) :
    (readImport module? names n following).2 = following.length := by
  simp [readImport, hopen, hfirst, length_importChunks_of_not_mem [] h]

/-! ## Headers -/

/-- The code is the header of a class or a function, and the parenthesis that it opens is open at
the end of the source. -/
inductive UnclosedHeader (code : Text) (following : List Text) : Prop
  | bases {name before rest : Text} (header : classHeader? code = some name)
      (bases : cut? ['('] code = some (before, rest)) (unclosed : Unclosed ('(' :: rest) following)
  | signature {h : DefHeader} (header : defHeader? code = some h)
      (unclosed : Unclosed h.call following)

section Header

variable {code trailing : Text} {indent : Nat} {h : DefHeader}

theorem snd_stepMember_of_def (hd : defHeader? code = some h)
    (hsig : (readSignature h.call following).2 = 0) (c : OpenClass) :
    (stepMember s c n code trailing indent following).2 = 0 := by
  unfold stepMember
  rw [hd]
  split
  · exact hsig
  · rfl

theorem snd_stepOuter_of_def (hd : defHeader? code = some h)
    (hsig : (readSignature h.call following).2 = 0) :
    (stepOuter options s n code trailing indent following).2 = 0 := by
  cases indent with
  | zero =>
    simp only [stepOuter, hd]
    exact hsig
  | succ k => rfl

theorem UnclosedHeader.snd_stepCode (hu : UnclosedHeader code following) :
    (stepCode options s n code trailing indent following).2 = 0 := by
  unfold stepCode
  cases hu with
  | bases header bases unclosed =>
    rw [header]
    exact baseLines_of_unclosed bases unclosed
  | @signature h header unclosed =>
    obtain ⟨t, ht⟩ : ∃ t, h.call = '(' :: t := by
      obtain ⟨-, -, -, -, rest, -, hcall, -⟩ := defHeader?_eq_some_iff.1 header
      exact ⟨rest, hcall⟩
    have hsig : (readSignature h.call following).2 = 0 := by
      rw [ht] at unclosed ⊢
      rw [readSignature_of_unclosed unclosed]
    rw [classHeader?_eq_none_of_defHeader? header]
    dsimp only
    split
    · next c _ =>
      split
      · exact snd_stepMember_of_def header hsig c
      · exact snd_stepOuter_of_def header hsig
    · exact snd_stepOuter_of_def header hsig

/-- **A step over an unclosed header takes no other line.** -/
theorem UnclosedHeader.snd_step (hu : UnclosedHeader (splitHeaderString line).1 following) :
    (step options s n line following).2 = 0 := by
  unfold step
  dsimp only
  split
  · rfl
  · cases hopen : (s.fixBodyIndent line).strings.isOpen with
    | true =>
      -- the line belongs to the open string
      have hbelongs : ((s.fixBodyIndent line).strings.feed line).1 = true := by
        rw [StringTracker.feed_fst,
          show (s.fixBodyIndent line).strings.quote.isSome = true from hopen, Bool.true_or]
      simp only [↓reduceIte, hbelongs]
    | false =>
      simp only [Bool.false_eq_true, ↓reduceIte]
      split
      · rfl
      · split
        · rfl
        · exact hu.snd_stepCode

end Header

/-! ## Calls and lists -/

/-- The line is a column call in the body of the open class, or an import list, and its parenthesis
is never closed. -/
inductive UnclosedCall (options : OutlineOptions) (s : ScanState) (line : Text)
    (following : List Text) : Prop
  | column {name t : Text} {c : OpenClass} (call : columnAttribute? line = some (name, '(' :: t))
      (current : (s.fixBodyIndent line).current = some c) (deeper : c.indent < indentation line)
      (body : c.bodyIndent = some (indentation line)) (unclosed : Unclosed ('(' :: t) following)
  | list {module? : Option Text} {names : Text} (imports : options.imports = true)
      (start : importLine? line = some (module?, names))
      (opens : startsWith ['('] (trimLeft (uncomment names)) = true) (first : ')' ∉ uncomment names)
      (unclosed : ∀ later ∈ following, ')' ∉ uncomment later)

/-- An import is no header. -/
theorem headers_eq_none_of_importLine? {module? : Option Text} {names : Text}
    (h : importLine? line = some (module?, names)) :
    classHeader? line = none ∧ defHeader? line = none := by
  obtain ⟨c, t, rfl, hc⟩ := exists_cons_of_importLine? h
  refine ⟨classHeader?_eq_none_of_head (by rcases hc with rfl | rfl <;> decide) t, ?_⟩
  by_contra hsome
  obtain ⟨h, hh⟩ := Option.ne_none_iff_exists'.1 hsome
  obtain ⟨c', t', htrim, hc'⟩ := exists_trimLeft_of_defHeader? hh
  rw [trimLeft_cons (by rcases hc with rfl | rfl <;> decide)] at htrim
  obtain ⟨rfl, -⟩ := List.cons.inj htrim
  rcases hc with rfl | rfl <;> exact absurd hc' (by decide)

/-- **A step over an import line** ends the open class and lists the import. -/
theorem step_of_importLine? {module? : Option Text} {names : Text} (hon : options.imports = true)
    (hs : s.strings.quote = none) (hd : cutDelimiter? line = none)
    (h : importLine? line = some (module?, names)) :
    step options s n line following =
      ({ s.closeClass with
          latest := none, imports := (readImport module? names n following).1 :: s.imports },
        (readImport module? names n following).2) := by
  obtain ⟨c, t, rfl, hc⟩ := exists_cons_of_importLine? h
  have htrim : trimLeft (c :: t) = c :: t :=
    trimLeft_cons (by rcases hc with rfl | rfl <;> decide) t
  have hindent : indentation (c :: t) = 0 := by rw [indentation, htrim, Nat.sub_self]
  obtain ⟨hcomment, hne⟩ := isCode_of_trimLeft htrim (by rcases hc with rfl | rfl <;> decide)
  obtain ⟨hclass, hdef⟩ := headers_eq_none_of_importLine? h
  have houter : stepOuter options { s with latest := none } n (c :: t) [] 0 following =
      ({ s.closeClass with
          latest := none, imports := (readImport module? names n following).1 :: s.imports },
        (readImport module? names n following).2) := by
    simp only [stepOuter, hdef, hon, ↓reduceIte, h, ScanState.feedTrailing_nil]
    obtain ⟨_, current, _⟩ := s
    cases current <;> rfl
  rw [step_eq_stepCode hs (splitHeaderString_of_cutDelimiter?_eq_none hd) hd hcomment hne,
    ScanState.fixBodyIndent_of_margin hindent, stepCode, hclass, hindent]
  -- a line at the left margin is in no class
  dsimp only
  split
  · rw [if_neg (Nat.not_lt_zero _)]
    exact houter
  · exact houter

/-- **A step over an unclosed call or list takes all lines.** -/
theorem UnclosedCall.snd_step (hu : UnclosedCall options s line following)
    (hs : s.strings.quote = none) (hd : cutDelimiter? line = none) :
    (step options s n line following).2 = following.length := by
  cases hu with
  | column call current deeper body unclosed =>
    have hsplit := splitHeaderString_of_cutDelimiter?_eq_none hd
    obtain ⟨hcomment, hne⟩ := isCode_of_columnAttribute? call
    rw [step_eq_stepCode hs hsplit hd hcomment hne, stepCode,
      classHeader?_eq_none_of_indentation (Nat.zero_lt_of_lt deeper)]
    simp only [current, if_pos deeper, stepMember, body, ↓reduceIte,
      defHeader?_eq_none_of_columnAttribute? call]
    exact readAttribute_of_unclosed call unclosed
  | list imports start opens first unclosed =>
    rw [step_of_importLine? imports hs hd start]
    dsimp only
    exact readImport_of_unclosed opens first unclosed

/-! ## Records stay -/

/-- The functions and classes of `d` are among those of `d'`, perhaps with more members. -/
structure KeptIn (d d' : Declarations) : Prop where
  functions : ∀ f ∈ d.functions, f ∈ d'.functions
  classes : ∀ c ∈ d.classes, ∃ c' ∈ d'.classes, c'.name = c.name ∧ c'.line = c.line

theorem KeptIn.refl (d : Declarations) : KeptIn d d :=
  ⟨fun _ hf => hf, fun c hc => ⟨c, hc, rfl, rfl⟩⟩

theorem KeptIn.trans {d₁ d₂ d₃ : Declarations} (h₁ : KeptIn d₁ d₂) (h₂ : KeptIn d₂ d₃) :
    KeptIn d₁ d₃ where
  functions f hf := h₂.functions f (h₁.functions f hf)
  classes c hc := by
    obtain ⟨c₂, hc₂, hname₂, hline₂⟩ := h₁.classes c hc
    obtain ⟨c₃, hc₃, hname₃, hline₃⟩ := h₂.classes c₂ hc₂
    exact ⟨c₃, hc₃, hname₃.trans hname₂, hline₃.trans hline₂⟩

/-- What a step adds replaces nothing. -/
theorem Grows.keptIn {d d' : Declarations} (h : Grows n line d d') : KeptIn d d' := by
  cases h with
  | same => exact .refl d
  | function hl hi =>
    exact { KeptIn.refl d with functions := fun f hf => List.mem_append_left _ hf }
  | «class» hl =>
    exact { KeptIn.refl d with classes := fun c hc => ⟨c, List.mem_append_left _ hc, rfl, rfl⟩ }
  | @method cs c h hd hl =>
    refine { KeptIn.refl d with classes := fun c' hc' => ?_ }
    rw [hd, List.mem_append, List.mem_singleton] at hc'
    rcases hc' with hc' | rfl
    · exact ⟨c', List.mem_append_left _ hc', rfl, rfl⟩
    · exact ⟨_, List.mem_append_right _ (List.mem_singleton_self _), rfl, rfl⟩
  | «import» hl hi => exact ⟨fun f hf => hf, fun c hc => ⟨c, hc, rfl, rfl⟩⟩

section Iteration

variable {src : List Text} {a b : ScanState × Nat}

theorem Iteration.keptIn (h : Iteration options src a b) : KeptIn a.1.headings b.1.headings := by
  obtain ⟨line, k, -, hstep, -⟩ := h
  have := @step_grows options a.1 (a.2 + 1) line (src.drop (a.2 + 1))
  rw [hstep] at this
  exact this.keptIn

theorem KeptIn.reflTransGen (h : Relation.ReflTransGen (Iteration options src) a b) :
    KeptIn a.1.headings b.1.headings := by
  induction h with
  | refl => exact .refl _
  | tail _ hstep ih => exact ih.trans hstep.keptIn

end Iteration

/-! ## What a scan reads at the left margin is listed -/

/-- What the line with number `n` declares at the left margin is among the records. -/
structure Lists (options : OutlineOptions) (d : Declarations) (n : Nat) (line : Text) : Prop where
  classes : ∀ name, options.classes = true → classHeader? line = some name →
    ∃ c ∈ d.classes, c.name = name ∧ c.line = n
  functions : ∀ h, indentation line = 0 → defHeader? line = some h →
    ∃ f ∈ d.functions, f.name = h.name ∧ f.isAsync = h.isAsync ∧ f.line = n

namespace Lists

theorem mono {d d' : Declarations} (h : Lists options d n line) (hkept : KeptIn d d') :
    Lists options d' n line where
  classes name hoption hl := by
    obtain ⟨c, hc, hname, hline⟩ := h.classes name hoption hl
    obtain ⟨c', hc', hname', hline'⟩ := hkept.classes c hc
    exact ⟨c', hc', hname'.trans hname, hline'.trans hline⟩
  functions h' hi hl := by
    obtain ⟨f, hf, hfields⟩ := h.functions h' hi hl
    exact ⟨f, hkept.functions f hf, hfields⟩

theorem of_headings {d : Declarations} (h : Lists options d.headings n line) :
    Lists options d n line where
  classes name hoption hl := by
    obtain ⟨c, hc, hname, hline⟩ := h.classes name hoption hl
    obtain ⟨c, hmem, rfl⟩ := List.mem_map.1 hc
    exact ⟨c, hmem, hname, hline⟩
  functions h' hi hl := by
    obtain ⟨f, hf, hfields⟩ := h.functions h' hi hl
    obtain ⟨f, hmem, rfl⟩ := List.mem_map.1 hf
    exact ⟨f, hmem, hfields⟩

/-- The outline lists what the scan has found, classes only if it is asked for them. -/
theorem declarations {s : ScanState} (h : Lists options s.found n line) :
    Lists options (s.declarations options) n line := by
  rw [ScanState.declarations_eq_found]
  refine ⟨fun name hoption hl => ?_, h.functions⟩
  obtain ⟨c, hc, hfields⟩ := h.classes name hoption hl
  exact ⟨c, by simpa [hoption] using hc, hfields⟩

end Lists

section Lists

variable {code trailing : Text} {h : DefHeader} (hs : s.strings.quote = none)
  (hsplit : splitHeaderString line = (code, trailing)) (hd : cutDelimiter? code = none)
include hs hsplit hd

/-- A class header outside of strings adds its class. -/
theorem headings_step_class {name : Text} (hl : classHeader? code = some name) :
    (step options s n line following).1.headings =
      { s.headings with classes := s.headings.classes ++ [{ name, line := n }] } := by
  have hcode := isCodeOf_of_splitHeaderString hsplit
  obtain ⟨_, _, _, _, hline, -⟩ := classHeader?_eq_some_iff.1 (hcode.classHeader? hl)
  have htrim : trimLeft line = line := by
    rw [hline]
    exact trimLeft_cons (by decide) _
  obtain ⟨hcomment, hne⟩ := isCode_of_trimLeft (htrim.trans hline) (by decide)
  rw [step_eq_stepCode hs hsplit hd hcomment hne, ← ScanState.headings_fixBodyIndent s line,
    stepCode, hl]
  exact headings_stepClass name

/-- A function header at the left margin, outside of strings, adds its function. -/
theorem headings_step_function (hl : defHeader? code = some h) (hi : indentation line = 0) :
    (step options s n line following).1.headings =
      { s.headings with functions := s.headings.functions ++ [h.heading n] } := by
  have hcode := isCodeOf_of_splitHeaderString hsplit
  obtain ⟨call, hline⟩ := hcode.defHeader? hl
  obtain ⟨c, t, htrim, hfirst⟩ := exists_trimLeft_of_defHeader? hline
  obtain ⟨hcomment, hne⟩ := isCode_of_trimLeft htrim (by rcases hfirst with rfl | rfl <;> decide)
  rw [step_eq_stepCode hs hsplit hd hcomment hne, ← ScanState.headings_fixBodyIndent s line,
    stepCode, classHeader?_eq_none_of_defHeader? hl, hi]
  -- a line at the left margin is in no class
  dsimp only
  split
  · rw [if_neg (Nat.not_lt_zero _)]
    exact headings_stepOuter_function hl
  · exact headings_stepOuter_function hl

/-- **A line that declares something at the left margin is listed once it is read.** -/
theorem lists_step : Lists options (step options s n line following).1.headings n line := by
  have hcode := isCodeOf_of_splitHeaderString hsplit
  constructor
  · intro name _ hl
    rw [headings_step_class hs hsplit hd (hcode.classHeader?_eq.trans hl)]
    exact ⟨_, List.mem_append_right _ (List.mem_singleton_self _), rfl, rfl⟩
  · intro h hi hl
    obtain ⟨call, hl'⟩ := hcode.exists_defHeader? hl
    rw [headings_step_function hs hsplit hd hl' hi]
    exact ⟨_, List.mem_append_right _ (List.mem_singleton_self _), rfl, rfl, rfl⟩

end Lists

/-- **A scan goes on below an unclosed header, and with nothing below an unclosed call.** When an
iteration reads the header of a class or a function whose parenthesis is open at the end of the
source, the cursor moves to the next line, and what the lines that are read from there on declare at
the left margin, outside of strings, is in the outline. When it reads a column call or an import
list that is never closed, the cursor moves to the end. -/
theorem unclosed_recovery {content : Text} {a b : ScanState × Nat}
    (hrun : Relation.ReflTransGen (Iteration options (lines content)) ({}, 0) a)
    (h : Iteration options (lines content) a b) (hline : (lines content)[a.2]? = some line) :
    (UnclosedHeader (splitHeaderString line).1 ((lines content).drop (a.2 + 1)) →
      b.2 = a.2 + 1 ∧
        ∀ c d later, Relation.ReflTransGen (Iteration options (lines content)) b c →
          Iteration options (lines content) c d → (lines content)[c.2]? = some later →
          c.1.strings.quote = none → cutDelimiter? (splitHeaderString later).1 = none →
          Lists options (declarations options content) (c.2 + 1) later) ∧
      (a.1.strings.quote = none → cutDelimiter? line = none →
        UnclosedCall options a.1 line ((lines content).drop (a.2 + 1)) →
        b.2 = (lines content).length) := by
  obtain ⟨n, hstep, hb⟩ := h.exists_step hline
  refine ⟨fun hu => ⟨?_, fun c d later hbc hcd hlater hs hd => ?_⟩, fun hs hd hu => ?_⟩
  · have hn : n = 0 := by
      rw [← @hu.snd_step options a.1 (a.2 + 1), hstep]
    rw [hb, hn]
  · have hend := @reflTransGen_scanLines options d.1 (lines content) d.2 hcd.lt_and_le.2
    have hscan := scanLines_eq_of_reflTransGen (((hrun.tail h).trans hbc).tail hcd)
    rw [declarations, show lines content = (lines content).drop 0 from rfl, hscan]
    refine (Lists.of_headings (Lists.mono ?_ (KeptIn.reflTransGen hend))).declarations
    obtain ⟨k, hstep, -⟩ := hcd.exists_step hlater
    have := @lists_step options c.1 (c.2 + 1) later ((lines content).drop (c.2 + 1)) _ _ hs rfl hd
    rwa [hstep] at this
  · have hn : n = ((lines content).drop (a.2 + 1)).length := by
      rw [← @hu.snd_step options a.1 (a.2 + 1) _ _ hs hd, hstep]
    have hlt : a.2 < (lines content).length := (List.getElem?_eq_some_iff.1 hline).1
    rw [hb, hn, List.length_drop]
    omega

/-- The function below an unclosed base list is in the outline. -/
theorem unclosed_recovery_bases :
    Lists {} (declarations {} "class A(Base,\nasync def f(x):\n".toList) 2
      "async def f(x):".toList := by
  set header : Text := "class A(Base,".toList
  set function : Text := "async def f(x):".toList
  have hlines : lines "class A(Base,\nasync def f(x):\n".toList = [header, function] := by
    decide +kernel
  have hu : UnclosedHeader (splitHeaderString header).1 [function] :=
    @UnclosedHeader.bases _ _ "A".toList "class A".toList "Base,".toList (by decide +kernel)
      (by decide +kernel) (closed_collectCall_eq_false_iff.1 (by decide +kernel))
  have first : Iteration {} [header, function] ({}, 0) ((step {} {} 1 header [function]).1, 1) :=
    ⟨header, 0, rfl, Prod.ext rfl hu.snd_step, rfl⟩
  have second : Iteration {} [header, function] ((step {} {} 1 header [function]).1, 1)
      ((step {} (step {} {} 1 header [function]).1 2 function []).1, 2) :=
    ⟨function, 0, rfl, Prod.ext rfl (by decide +kernel), rfl⟩
  rw [← hlines] at first second
  obtain ⟨-, hlists⟩ := (unclosed_recovery .refl first (by rw [hlines]; rfl)).1
    (by rw [hlines]; exact hu)
  refine hlists _ _ _ .refl second (by rw [hlines]; rfl) ?_ ?_
  · decide +kernel
  · decide +kernel

/-- **A function below an unclosed column call is in no outline.** -/
theorem unclosed_column_hides_function :
    (lines "class A:\n    x = Column(Integer,\n\ndef after():\n    pass\n".toList)[3]? =
        some "def after():".toList ∧
      ¬ Lists {} (declarations {}
        "class A:\n    x = Column(Integer,\n\ndef after():\n    pass\n".toList) 4
        "def after():".toList := by
  refine ⟨by decide +kernel, fun h => ?_⟩
  have hfunctions : (declarations {}
      "class A:\n    x = Column(Integer,\n\ndef after():\n    pass\n".toList).functions = [] := by
    decide +kernel
  obtain ⟨f, hf, -⟩ := h.functions ⟨false, "after".toList, "():".toList⟩ (by decide +kernel)
    (by decide +kernel)
  rw [hfunctions] at hf
  exact List.not_mem_nil hf

end CodeIndex.Indented
