import CodeIndex.Proofs.Indented.Printing
import CodeIndex.Proofs.Indented.Step

/-!
# The outline of a printed module

The outline of a printed module is the module's own list of declarations (`declarations_print`). The
proof follows the scan block by block. Between two items no string is open and no description waits;
a function closes the open class and adds its record (`reads_function`), a class opens with its
header (`reads_class`), and each of its members adds to it (`reads_member`) while the indentation of
the body stays what the first line fixed.
-/

namespace CodeIndex.Indented

open Text Source

variable {options : OutlineOptions} {s : ScanState} {n : Nat}

/-! ## Bodies -/

/-- The scan is in a body with its members at some depth: no string is open, and the body of the
open class, if there is one, has this depth. -/
structure InBody (depth : Nat) (s : ScanState) : Prop where
  strings : s.strings = {}
  current : ∀ c ∈ s.current, c.indent = 0 ∧ c.bodyIndent = some depth

namespace ScanState

theorem fixBodyIndent_of_fixed (h : ∀ c ∈ s.current, c.bodyIndent ≠ none) (line : Text) :
    s.fixBodyIndent line = s := by
  unfold fixBodyIndent mapCurrent
  split
  · obtain ⟨_, current, _⟩ := s
    cases current with
    | none => rfl
    | some c => simp [h c rfl]
  · rfl

/-- The first line of code in a class fixes the indentation of its body; later lines at that
indentation find it fixed. -/
theorem fixBodyIndent_of_deeper {c : OpenClass} {line : Text} {k : Nat} (hs : s.strings = {})
    (hc : s.current = some c) (hi : c.indent = 0)
    (hb : c.bodyIndent = none ∨ c.bodyIndent = some (k + 1)) (hl : indentation line = k + 1)
    (ht : trimLeft line ≠ []) (hcomment : startsWith ['#'] (trimLeft line) = false) :
    s.fixBodyIndent line = { s with current := some { c with bodyIndent := some (k + 1) } } := by
  rcases hb with hb | hb
  · simp [fixBodyIndent, mapCurrent, hs, hc, hi, hb, hl, ht, hcomment, StringTracker.isOpen]
  · rw [fixBodyIndent_of_fixed]
    · obtain ⟨_, current, _⟩ := s
      obtain rfl : current = some c := hc
      obtain ⟨_, _, bodyIndent, _⟩ := c
      obtain rfl : bodyIndent = some (k + 1) := hb
      rfl
    · intro d hd
      obtain rfl : c = d := by simpa [hc] using hd
      simp [hb]

end ScanState

/-- A line of a body is no declaration. -/
theorem InBody.step_bodyLine {depth : Nat} (h : InBody depth s) (b : BodyLine depth) :
    ∃ l, ∀ following, step options s n b.text following = ({ s with latest := l }, 0) := by
  have hpos : 0 < indentation b.text := Nat.zero_lt_of_lt b.deeper
  have hd : cutDelimiter? b.text = none := cutDelimiter?_eq_none_iff.2 b.noString
  cases hc : startsWith ['#'] (trimLeft b.text) with
  | true =>
    refine ⟨s.latest, fun following => step_of_isIdle ?_ ?_⟩
    · rw [h.strings]
      rfl
    · rw [isIdle, hc, Bool.or_true]
  | false =>
    have hfix : s.fixBodyIndent b.text = s := by
      refine ScanState.fixBodyIndent_of_fixed (fun c hc => ?_) b.text
      rw [(h.current c hc).2]
      simp
    refine ⟨none, fun following => ?_⟩
    rw [step_code h.strings hd hc b.nonblank, hfix, stepCode,
      classHeader?_eq_none_of_indentation hpos]
    obtain ⟨k, hk⟩ := Nat.exists_eq_add_of_lt hpos
    rw [Nat.zero_add] at hk
    cases hcur : s.current with
    | none => simp only [stepOuter, hk, ScanState.feedTrailing_nil]
    | some c =>
      obtain ⟨hi, hb⟩ := h.current c hcur
      have hne : some (indentation b.text) ≠ c.bodyIndent := by
        rw [hb]
        exact fun e => absurd (Option.some.inj e) (Nat.ne_of_gt b.deeper)
      simp only [hi, gt_iff_lt, hpos, ↓reduceIte, stepMember, hne, ScanState.feedTrailing_nil]

/-- **The lines of a body change nothing but the latest declaration.** -/
theorem InBody.reads_body {depth : Nat} (h : InBody depth s) (body : List (BodyLine depth)) :
    ∃ l, Reads options s n (body.map (·.text)) { s with latest := l } := by
  induction body generalizing s n with
  | nil => exact ⟨s.latest, .nil s n⟩
  | cons b body ih =>
    obtain ⟨l, hl⟩ :
        ∃ l, ∀ following, step options s n b.text following = ({ s with latest := l }, 0) :=
      h.step_bodyLine b
    obtain ⟨l', hl'⟩ := @ih { s with latest := l } (n + 1) ⟨h.strings, h.current⟩
    exact ⟨l', .cons hl hl'⟩

/-- The docstring below a header documents the declaration and leaves the rest alone. -/
theorem InBody.reads_docLines {depth : Nat} (h : InBody depth s) (k : Nat)
    (doc : Option Docstring) :
    Reads options s n (docLines k doc) (doc.elim s fun d => s.attach d.text) := by
  cases doc with
  | none => exact .nil s n
  | some d =>
    refine .one fun following => ?_
    have hfix : ∀ line, s.fixBodyIndent line = s := fun line =>
      ScanState.fixBodyIndent_of_fixed (fun c hc => by simp [(h.current c hc).2]) line
    have := @step_string options s n following h.strings (List.replicate k ' ') d.text
      (isBlank_of_mem_replicate k) d.quoteFree d.trimmed d.nonempty .double
    rwa [hfix] at this

theorem InBody.attach {depth : Nat} (h : InBody depth s) (t : Text) :
    InBody depth (s.attach t) := by
  obtain ⟨hs, hc⟩ := h
  obtain ⟨strings, current, pending, latest, _⟩ := s
  -- a description changes neither the indentation of the class nor that of its body
  have hmap : ∀ g : OpenClass → OpenClass,
      (∀ c, (g c).indent = c.indent ∧ (g c).bodyIndent = c.bodyIndent) →
      ∀ c ∈ current.map g, c.indent = 0 ∧ c.bodyIndent = some depth := by
    intro g hg c hcg
    obtain ⟨d, hd, rfl⟩ := Option.map_eq_some_iff.1 hcg
    rw [(hg d).1, (hg d).2]
    exact hc d hd
  rcases latest with _ | (_ | _ | _)
  · exact ⟨hs, hc⟩
  · exact ⟨hs, hc⟩
  · exact ⟨hs, hmap _ fun _ => ⟨rfl, rfl⟩⟩
  · exact ⟨hs, hmap _ fun _ => ⟨rfl, rfl⟩⟩

/-- **A printed function below its header**: the docstring is attached, and the body changes
nothing. -/
theorem reads_lines {depth : Nat} {f : Function depth} {s₁ : ScanState}
    (hstep : ∀ following, step options s n (indented depth f.header) following = (s₁, 0))
    (h : InBody depth s₁) :
    ∃ l, Reads options s n f.lines
      { f.doc.elim s₁ (fun d => s₁.attach d.text) with latest := l } := by
  have hdoc : InBody depth (f.doc.elim s₁ fun d => s₁.attach d.text) := by
    cases f.doc with
    | none => exact h
    | some d => exact h.attach d.text
  obtain ⟨l, hl⟩ : ∃ l, Reads options _ (n + 1 + (docLines (depth + 4) f.doc).length)
    (f.body.map (·.text)) { f.doc.elim s₁ (fun d => s₁.attach d.text) with latest := l } :=
    hdoc.reads_body f.body
  exact ⟨l, .cons hstep ((h.reads_docLines (depth + 4) f.doc).append hl)⟩

/-! ## Functions -/

/-- A header at the left margin. -/
theorem step_functionHeader (hs : s.strings = {}) (hp : s.pending = none) (f : Function 0)
    (following : List Text) :
    step options s n (indented 0 f.header) following =
      ({ s.closeClass with
          functions := { f.record n with description := none } :: s.functions
          latest := some .function }, 0) := by
  obtain ⟨c, t, hf, hc⟩ := f.header_eq_cons
  have hline : indented 0 f.header = c :: t := hf
  have hb : isBlank c = false := by rcases hc with rfl | rfl <;> decide
  have hmargin : indentation (indented 0 f.header) = 0 := by rw [hf, indentation_indented 0 hb]
  have hclass : classHeader? (indented 0 f.header) = none := by
    rw [hline]
    refine classHeader?_eq_none_of_head ?_ t
    rcases hc with rfl | rfl <;> decide
  have htrim : trimLeft (indented 0 f.header) = c :: t := by rw [hf, trimLeft_indented 0 hb]
  have hcomment : startsWith ['#'] (trimLeft (indented 0 f.header)) = false := by
    rw [htrim]
    rcases hc with rfl | rfl <;> rfl
  rw [step_code hs (cutDelimiter?_of_quoteFree (quoteFree_indented f.quoteFree_header 0)) hcomment
    (by simp [htrim]), ScanState.fixBodyIndent_of_margin hmargin, hmargin, stepCode, hclass]
  obtain ⟨strings, current, pending, latest, functions, classes, imports⟩ := s
  obtain rfl : pending = none := hp
  cases current with
  | none =>
    simp only [stepOuter, f.defHeader?_header, f.readSignature_call, ScanState.takePending,
      ScanState.closeClass, ScanState.feedTrailing_nil]
    rfl
  | some c =>
    simp only [gt_iff_lt, Nat.not_lt_zero, ↓reduceIte, stepOuter, f.defHeader?_header,
      f.readSignature_call, ScanState.takePending, ScanState.closeClass, ScanState.feedTrailing_nil]
    rfl

/-- **A printed function closes the open class and adds its record.** -/
theorem reads_function (hs : s.strings = {}) (hp : s.pending = none) (f : Function 0) :
    ∃ l, Reads options s n f.lines
      { s.closeClass with functions := f.record n :: s.functions, latest := l } := by
  obtain ⟨l, hl⟩ : ∃ l, Reads options s n f.lines _ :=
    reads_lines (step_functionHeader hs hp f) ⟨by simp [hs], by simp⟩
  refine ⟨l, ?_⟩
  cases hdoc : f.doc with
  | none => simpa [hdoc, Function.record] using hl
  | some d => simpa [hdoc, Function.record, ScanState.attach, mapHead] using hl

/-! ## Members of a class -/

/-- The scan is in the class `c`, whose body has four spaces before its members or has not begun. -/
structure InClass (c : OpenClass) (s : ScanState) : Prop where
  strings : s.strings = {}
  pending : s.pending = none
  current : s.current = some c
  indent : c.indent = 0
  bodyIndent : c.bodyIndent = none ∨ c.bodyIndent = some 4

/-- A line of code with four spaces before it is a member. -/
theorem InClass.step_member {c : OpenClass} (h : InClass c s) {x : Char} {t : Text}
    (hx : isBlank x = false) (hne : x ≠ '#') (hq : QuoteFree (x :: t)) (following : List Text) :
    step options s n (indented 4 (x :: t)) following =
      stepMember { s with current := some { c with bodyIndent := some 4 }, latest := none }
        { c with bodyIndent := some 4 } n (indented 4 (x :: t)) [] 4 following := by
  have hindent : indentation (indented 4 (x :: t)) = 4 := indentation_indented 4 hx t
  have htrim : trimLeft (indented 4 (x :: t)) = x :: t := trimLeft_indented 4 hx t
  have hcomment : startsWith ['#'] (trimLeft (indented 4 (x :: t))) = false := by
    rw [htrim, ← Bool.not_eq_true, startsWith_char]
    simpa using hne
  have hl : trimLeft (indented 4 (x :: t)) ≠ [] := by simp [htrim]
  rw [step_code h.strings (cutDelimiter?_of_quoteFree (quoteFree_indented hq 4)) hcomment hl,
    ScanState.fixBodyIndent_of_deeper h.strings h.current h.indent h.bodyIndent hindent hl hcomment,
    hindent, stepCode, classHeader?_eq_none_of_indentation (by omega)]
  simp only [h.indent, gt_iff_lt, Nat.zero_lt_succ, ↓reduceIte]

/-- **An attribute adds the property that it declares**, if it declares one. -/
theorem InClass.reads_attribute {c : OpenClass} (h : InClass c s) (name : Name) {rest : Text}
    {p : Option Text} (hq : QuoteFree rest) (hrest : ∀ c ∈ (trimLeft rest).head?, isWord c = false)
    (hread : ∀ following, readAttribute (indented 4 (name.text ++ rest)) following = (p, 0)) :
    Reads options s n [indented 4 (name.text ++ rest)]
      { s with
        current := some { c with bodyIndent := some 4, properties := p.toList ++ c.properties }
        latest := none } := by
  refine .one fun following => ?_
  have hdef : defHeader? (indented 4 (name.text ++ rest)) = none :=
    defHeader?_eq_none (isBlank_of_mem_replicate 4) name.nonempty name.word hrest
  have hq' : QuoteFree (name.text ++ rest) := quoteFree_append.2 ⟨name.quoteFree, hq⟩
  obtain ⟨x, t, hname⟩ := List.exists_cons_of_ne_nil name.nonempty
  have hx : isWord x = true := name.word x (by simp [hname])
  have hne : x ≠ '#' := by
    rintro rfl
    exact absurd hx (by decide)
  have hstep : step options s n (indented 4 (x :: (t ++ rest))) following = _ :=
    h.step_member (isBlank_of_isWord hx) hne (by rwa [hname] at hq') following
  rw [← List.cons_append, ← hname] at hstep
  rw [hstep, stepMember, if_pos rfl, hdef]
  simp only [hread, ScanState.mapCurrent, Option.map_some, ScanState.feedTrailing_nil]

theorem InClass.step_methodHeader {c : OpenClass} (h : InClass c s) (f : Function 4)
    (following : List Text) :
    step options s n (indented 4 f.header) following =
      ({ s with
          current := some { c with
            bodyIndent := some 4
            methods := { f.methodRecord n with description := none } :: c.methods }
          latest := some .method }, 0) := by
  obtain ⟨x, t, hf, hx⟩ := f.header_eq_cons
  have hb : isBlank x = false := by rcases hx with rfl | rfl <;> decide
  have hne : x ≠ '#' := by rcases hx with rfl | rfl <;> decide
  have hq : QuoteFree (x :: t) := hf ▸ f.quoteFree_header
  have hparams : (f.params.map (·.text)).filter (!isImplicitParam ·) =
      (f.methodRecord n).params := by
    refine List.filter_congr fun p _ => ?_
    simp [isImplicitParam]
  have hstep : step options s n (indented 4 (x :: t)) following = _ :=
    h.step_member hb hne hq following
  rw [← hf] at hstep
  rw [hstep, stepMember, if_pos rfl, f.defHeader?_header]
  obtain ⟨strings, current, pending, latest, functions, classes, imports⟩ := s
  obtain rfl : pending = none := h.pending
  simp only [f.readSignature_call, ScanState.takePending, ScanState.mapCurrent, Option.map_some,
    ScanState.feedTrailing_nil, hparams]
  rfl

/-- The class with a member that is printed on line `n`. -/
def OpenClass.withMember (c : OpenClass) (n : Nat) (m : Member) : OpenClass :=
  { c with
    bodyIndent := some 4
    methods := (m.methodRecord? n).toList ++ c.methods
    properties := m.property?.toList ++ c.properties }

/-- **A printed member is added to the open class.** -/
theorem InClass.reads_member {c : OpenClass} (h : InClass c s) (m : Member) :
    ∃ l, Reads options s n m.lines { s with current := some (c.withMember n m), latest := l } := by
  cases m with
  | typed name type =>
    refine ⟨none, h.reads_attribute name ?_ ?_ fun following => ?_⟩
    · exact quoteFree_append.2 ⟨by decide, type.quoteFree⟩
    · rw [show trimLeft (": ".toList ++ type.text) = ": ".toList ++ type.text from rfl]
      exact fun c hc => Option.some.inj hc ▸ by decide
    · exact readAttribute_typed (isBlank_of_mem_replicate 4) (by decide) name.nonempty name.word
        type.trimmed type.noEquals type.noDef following
  | column name type args =>
    have hargs : ∀ a ∈ type.text :: args.map (·.text), Nested (fun _ => True) a := by
      intro a ha
      rcases List.mem_cons.1 ha with rfl | ha
      · exact type.nested
      · obtain ⟨p, -, rfl⟩ := List.mem_map.1 ha
        exact p.nested
    have htype : ∀ c ∈ type.text, c ≠ ',' ∧ c ≠ '(' ∧ c ≠ ')' := fun c hc =>
      ⟨fun e => type.noComma (e ▸ hc), fun e => type.noOpening (e ▸ hc),
        fun e => type.noClosing (e ▸ hc)⟩
    refine ⟨none, h.reads_attribute name ?_ ?_ fun following => ?_⟩
    · exact forall_mem_column (by decide) type.quoteFree Phrase.quoteFree
    · intro c hc
      obtain rfl : '=' = c := Option.some.inj hc
      decide
    · exact readAttribute_column (isBlank_of_mem_replicate 4) (by decide) name.nonempty name.word
        type.nonempty type.trimmed htype hargs following
  | method f =>
    obtain ⟨l, hl⟩ : ∃ l, Reads options s n f.lines _ :=
      reads_lines (h.step_methodHeader f) ⟨h.strings, by simp [h.indent]⟩
    refine ⟨l, ?_⟩
    cases hdoc : f.doc with
    | none =>
      simpa [hdoc, Member.lines, OpenClass.withMember, Member.methodRecord?, Member.property?,
        Function.methodRecord] using hl
    | some d =>
      simpa [hdoc, Member.lines, OpenClass.withMember, Member.methodRecord?, Member.property?,
        Function.methodRecord, ScanState.attach, ScanState.mapCurrent, mapHead] using hl

/-- The class with members that are printed from line `n` on. -/
def OpenClass.withMembers : OpenClass → Nat → List Member → OpenClass
  | c, _, [] => c
  | c, n, m :: members => (c.withMember n m).withMembers (n + m.lines.length) members

theorem OpenClass.close_withMembers (c : OpenClass) (n : Nat) (members : List Member) :
    (c.withMembers n members).close =
      { c.close with
        methods := c.close.methods ++
          (placed (·.lines.length) n members).filterMap fun (n, m) => m.methodRecord? n
        properties := c.close.properties ++ members.filterMap Member.property? } := by
  induction members generalizing c n with
  | nil => simp [withMembers, placed]
  | cons m members ih =>
    rw [withMembers, ih]
    cases m <;> simp [withMember, close, placed, List.filterMap_cons, Member.methodRecord?,
      Member.property?]

/-- **Printed members are added to the open class one after the other.** -/
theorem InClass.reads_members {c : OpenClass} (h : InClass c s) (members : List Member) :
    ∃ l, Reads options s n (members.flatMap Member.lines)
      { s with current := some (c.withMembers n members), latest := l } := by
  induction members generalizing s c n with
  | nil =>
    refine ⟨s.latest, ?_⟩
    have hself : { s with current := some c } = s := by rw [← h.current]
    rw [OpenClass.withMembers, hself]
    exact .nil s n
  | cons m members ih =>
    obtain ⟨l, hl⟩ : ∃ l, Reads options s n m.lines _ := h.reads_member m
    have h' : InClass (c.withMember n m)
        { s with current := some (c.withMember n m), latest := l } :=
      ⟨h.strings, h.pending, rfl, h.indent, .inr rfl⟩
    obtain ⟨l', hl'⟩ := @ih _ (n + m.lines.length) _ h'
    exact ⟨l', hl.append hl'⟩

/-! ## Classes -/

/-- The class right after its header. -/
def Source.Class.opened (c : Source.Class) (n : Nat) : OpenClass where
  header := { name := c.name.text, line := n, isExported := true }
  indent := 0

theorem step_classHeader (hs : s.strings = {}) (hp : s.pending = none) (c : Source.Class)
    (following : List Text) :
    step options s n c.header following =
      ({ s.closeClass with current := some (c.opened n), latest := some .openClass }, 0) := by
  obtain ⟨t, hline⟩ : ∃ t, c.header = 'c' :: t := by
    obtain ⟨x, t, hc, -⟩ := c.header_eq
    exact ⟨_, hc⟩
  have htrim : trimLeft c.header = 'c' :: t := by rw [hline, trimLeft_cons (by decide)]
  have hmargin : indentation c.header = 0 := by rw [indentation, htrim, hline, Nat.sub_self]
  have hcomment : startsWith ['#'] (trimLeft c.header) = false := by
    rw [htrim]
    rfl
  rw [step_code hs (cutDelimiter?_of_quoteFree c.quoteFree_header) hcomment (by simp [htrim]),
    ScanState.fixBodyIndent_of_margin hmargin, hmargin, stepCode, c.classHeader?_header]
  obtain ⟨strings, current, pending, latest, functions, classes, imports⟩ := s
  obtain rfl : pending = none := hp
  cases current <;>
    simp only [stepClass, c.baseLines_header, ScanState.takePending, ScanState.closeClass,
      ScanState.feedTrailing_nil, Class.opened]

/-- The docstring of a class documents it and fixes the indentation of its body. -/
theorem InClass.reads_docLines {c : OpenClass} (h : InClass c s) (hl : s.latest = some .openClass)
    (hd : c.header.description = none) (doc : Option Docstring) :
    ∃ l b, (b = none ∨ b = some 4) ∧ Reads options s n (docLines 4 doc)
      { s with
        current := some { c with
          header := { c.header with description := doc.map (·.text) }, bodyIndent := b }
        latest := l } := by
  cases doc with
  | none =>
    refine ⟨s.latest, c.bodyIndent, h.bodyIndent, ?_⟩
    have hself : { s with current := some { c with
        header := { c.header with description := none } } } = s := by
      rw [← hd, ← h.current]
    simp only [Option.map_none, hself]
    exact .nil s n
  | some d =>
    refine ⟨none, some 4, .inr rfl, .one fun following => ?_⟩
    let line : Text := indented 4 (Delimiter.double.chars ++ (d.text ++ Delimiter.double.chars))
    have htrim : trimLeft line = Delimiter.double.chars ++ (d.text ++ Delimiter.double.chars) :=
      trimLeft_indented 4 (by decide) _
    have hfix : s.fixBodyIndent line =
        { s with current := some { c with bodyIndent := some 4 } } := by
      refine ScanState.fixBodyIndent_of_deeper h.strings h.current h.indent h.bodyIndent
        (indentation_indented 4 (by decide) _) ?_ ?_
      · rw [htrim]
        simp [Delimiter.chars]
      · rw [htrim]
        rfl
    have hstep := @step_string options s n following h.strings (List.replicate 4 ' ') d.text
      (isBlank_of_mem_replicate 4) d.quoteFree d.trimmed d.nonempty .double
    rw [show List.replicate 4 ' ' ++ _ = line from rfl, hfix] at hstep
    refine hstep.trans ?_
    simp only [ScanState.attach, hl, ScanState.mapCurrent, Option.map_some]

/-- The line that stands for an empty body changes nothing but its indentation. -/
theorem InClass.reads_pass {c : OpenClass} (h : InClass c s) :
    Reads options s n [indented 4 "pass".toList]
      { s with current := some { c with bodyIndent := some 4 }, latest := none } :=
  h.reads_attribute ⟨"pass".toList, by decide, by decide⟩ quoteFree_nil nofun fun _ => rfl

/-- **A printed class closes the one before it and opens with all its members.** -/
theorem reads_class (hs : s.strings = {}) (hp : s.pending = none) (c : Source.Class) :
    ∃ l o, o.close = c.record n ∧
      Reads options s n c.lines { s.closeClass with current := some o, latest := l } := by
  have hopened : InClass (c.opened n)
      { s.closeClass with current := some (c.opened n), latest := some .openClass } :=
    ⟨by simp [hs], by simp [hp], rfl, rfl, .inl rfl⟩
  obtain ⟨l, b, hb, hdoc⟩ : ∃ l b, (b = none ∨ b = some 4) ∧
      Reads options _ (n + 1) (docLines 4 c.doc) _ :=
    hopened.reads_docLines rfl rfl c.doc
  set o₁ : OpenClass := { c.opened n with
    header := { (c.opened n).header with description := c.doc.map (·.text) }
    bodyIndent := b } with ho₁
  set k := n + 1 + (docLines 4 c.doc).length with hk
  have h₁ : InClass o₁ { s.closeClass with current := some o₁, latest := l } :=
    ⟨by simp [hs], by simp [hp], rfl, rfl, hb⟩
  obtain ⟨l₂, hmembers⟩ : ∃ l₂, Reads options _ k (c.members.flatMap Member.lines) _ :=
    h₁.reads_members c.members
  have hclose : (o₁.withMembers k c.members).close = c.record n := by
    have hlen : (docLines 4 c.doc).length = c.doc.toList.length := List.length_map _
    rw [OpenClass.close_withMembers, hk, hlen]
    simp [ho₁, OpenClass.close, Class.opened, Class.record]
  rw [Class.lines, Class.bodyLines]
  cases hempty : c.doc.isNone && c.members.isEmpty with
  | false =>
    refine ⟨l₂, o₁.withMembers k c.members, hclose, ?_⟩
    simp only [Bool.false_eq_true, ↓reduceIte, List.append_nil]
    exact .cons (step_classHeader hs hp c) (hdoc.append hmembers)
  | true =>
    -- without members, `pass` is the only line of the body
    have hm : c.members = [] := by
      simp only [Bool.and_eq_true, List.isEmpty_iff] at hempty
      exact hempty.2
    rw [hm, OpenClass.withMembers] at hclose
    have hpass : Reads options _ k [indented 4 "pass".toList] _ := h₁.reads_pass
    refine ⟨none, { o₁ with bodyIndent := some 4 }, hclose, ?_⟩
    simp only [hm, List.flatMap_nil, ↓reduceIte, List.nil_append]
    exact .cons (step_classHeader hs hp c) (hdoc.append hpass)

/-! ## Modules -/

/-- **A printed item adds its record.** -/
theorem reads_item (hs : s.strings = {}) (hp : s.pending = none) (gap : Nat) (i : Item) :
    ∃ s', s'.strings = {} ∧ s'.pending = none ∧ Reads options s n (i.lines gap) s' ∧
      s'.found = { s.found with
        functions := s.found.functions ++ (i.functionRecord? n).toList
        classes := s.found.classes ++ (i.classRecord? n).toList } := by
  cases i with
  | function f =>
    obtain ⟨l, hl⟩ : ∃ l, Reads options s n f.lines _ := reads_function hs hp f
    refine ⟨_, ?_, ?_, hl.append (Reads.blanks ?_ _ gap), ?_⟩
    · simp [hs]
    · simp [hp]
    · simp [hs]
    · rw [← ScanState.found_closeClass s]
      simp [ScanState.found, Item.functionRecord?, Item.classRecord?]
  | «class» c =>
    obtain ⟨l, o, ho, hl⟩ : ∃ l, ∃ o : OpenClass, o.close = c.record n ∧
        Reads options s n c.lines _ :=
      reads_class hs hp c
    refine ⟨_, ?_, ?_, hl.append (Reads.blanks ?_ _ gap), ?_⟩
    · simp [hs]
    · simp [hp]
    · simp [hs]
    · rw [← ScanState.found_closeClass s]
      simp [ScanState.found, ho, Item.functionRecord?, Item.classRecord?]

/-- **A printed module adds the records of its items.** -/
theorem reads_items (hs : s.strings = {}) (hp : s.pending = none) (gap : Nat) (items : List Item) :
    ∃ s', Reads options s n (items.flatMap (Item.lines gap)) s' ∧
      s'.found = { s.found with
        functions := s.found.functions ++ (placed (fun i => (i.lines gap).length) n items).filterMap
          fun (n, i) => i.functionRecord? n
        classes := s.found.classes ++ (placed (fun i => (i.lines gap).length) n items).filterMap
          fun (n, i) => i.classRecord? n } := by
  induction items generalizing s n with
  | nil => exact ⟨s, .nil s n, by simp [placed]⟩
  | cons i items ih =>
    obtain ⟨s₁, hs₁, hp₁, h₁, hf₁⟩ : ∃ s₁ : ScanState, s₁.strings = {} ∧ s₁.pending = none ∧
      Reads options s n (i.lines gap) s₁ ∧ _ := reads_item hs hp gap i
    obtain ⟨s₂, h₂, hf₂⟩ := @ih s₁ (n + (i.lines gap).length) hs₁ hp₁
    refine ⟨s₂, h₁.append h₂, ?_⟩
    rw [hf₂, hf₁]
    cases i <;> simp [placed, Item.functionRecord?, Item.classRecord?]

/-- **The outline inverts printing.** The declarations of a printed module are those of the module:
each function and class, with its members, parameters, types and descriptions, on the line where its
header was printed. -/
theorem declarations_print (options : OutlineOptions) (gap : Nat) (items : List Item) :
    declarations options (print gap items) = declared options gap items := by
  obtain ⟨s, hread, hfound⟩ : ∃ s, Reads options {} 1 (items.flatMap (Item.lines gap)) s ∧ _ :=
    reads_items rfl rfl gap items
  have hscan := hread []
  rw [List.append_nil, scanLines] at hscan
  rw [declarations, lines_print, hscan, ScanState.declarations_eq_found, hfound]
  rfl

end CodeIndex.Indented
