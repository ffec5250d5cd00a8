import CodeIndex.Proofs.Indented.Lookahead

/-!
# Signatures over several lines

A signature may be written in many ways: on one line, or with line breaks after its opening
parenthesis, after the commas and before its closing parenthesis, each line indented at will, and
with or without a comma after the last parameter. `SignatureLayout` is such a way, for given
parameters and an optional annotation, and `readSignature_layOut` says that all of them are read
alike: the parameters, the annotation and the line behind the signature come out as they were put
in.

Three readers have to agree for this. Joining the trimmed lines turns each break into one space
(`join_trim_layOut`); the balancer stops at the line of the closing parenthesis
(`closesAtLast_layOut`); and what stands between the parentheses is cut at the commas between
parameters (`arguments_listing`).
-/

namespace CodeIndex.Indented

open Text

/-! ## Words and lines -/

/-- What separates two words: blanks, or a line break with blanks around it. -/
inductive Gap where
  | blanks (inside : Text) (h : ∀ c ∈ inside, isBlank c = true)
  | lineBreak (behind indent : Text) (hbehind : ∀ c ∈ behind, isBlank c = true)
      (hindent : ∀ c ∈ indent, isBlank c = true)

/-- The gap when lines are joined. -/
def Gap.text : Gap → Text
  | blanks inside _ => inside
  | lineBreak .. => [' ']

theorem Gap.isBlank_of_mem_text (g : Gap) : ∀ c ∈ g.text, isBlank c = true := by
  cases g with
  | blanks inside h => exact h
  | lineBreak behind indent _ _ =>
    rw [text]
    decide

/-- The lines that words make after the beginning of a line, each word with the gap before it. -/
def layOut : (line : Text) → List (Gap × Text) → List Text
  | line, [] => [line]
  | line, (.blanks inside _, word) :: words => layOut (line ++ (inside ++ word)) words
  | line, (.lineBreak behind indent _ _, word) :: words =>
    (line ++ behind) :: layOut (indent ++ word) words

/-- The words on one line. -/
def oneLine (words : List (Gap × Text)) : Text := words.flatMap fun (g, word) => g.text ++ word

theorem oneLine_cons (g : Gap) (word : Text) (words : List (Gap × Text)) :
    oneLine ((g, word) :: words) = g.text ++ (word ++ oneLine words) := by
  rw [oneLine, List.flatMap_cons, List.append_assoc]
  rfl

/-- Words are laid out behind any beginning of the first line. -/
theorem exists_layOut (line : Text) (words : List (Gap × Text)) :
    ∃ more following, ∀ head, layOut (head ++ line) words = (head ++ (line ++ more)) ::
    following := by
  induction words generalizing line with
  | nil => exact ⟨[], [], fun head => by rw [layOut, List.append_nil]⟩
  | cons word words ih =>
    obtain ⟨g, word⟩ := word
    cases g with
    | blanks inside h =>
      obtain ⟨more, following, hlayout⟩ := ih (line ++ (inside ++ word))
      refine ⟨inside ++ word ++ more, following, fun head => ?_⟩
      rw [layOut, List.append_assoc head, hlayout, List.append_assoc line]
    | lineBreak behind indent hbehind hindent =>
      refine ⟨behind, layOut (indent ++ word) words, fun head => ?_⟩
      rw [layOut, List.append_assoc]

/-- **Joining the trimmed lines turns each break into one space.** -/
theorem join_trim_layOut {words : List (Gap × Text)} (hwords : ∀ w ∈ words, Solid w.2)
    {indent line : Text} (hindent : ∀ c ∈ indent, isBlank c = true) (hline : Solid line) :
    join [' '] ((layOut (indent ++ line) words).map trim) = line ++ oneLine words := by
  induction words generalizing indent line with
  | nil =>
    have htrim := hline.trim_eq hindent (List.forall_mem_nil _)
    rw [List.append_nil] at htrim
    rw [layOut, List.map_singleton, join_singleton, htrim, oneLine, List.flatMap_nil,
      List.append_nil]
  | cons word words ih =>
    obtain ⟨g, word⟩ := word
    obtain ⟨hword, hrest⟩ := List.forall_mem_cons.1 hwords
    rw [oneLine_cons]
    cases g with
    | blanks inside h =>
      rw [layOut, List.append_assoc, ih hrest hindent (hline.append hword inside), Gap.text]
      simp
    | lineBreak behind indent' hbehind hindent' =>
      have hjoin := ih hrest hindent' hword
      obtain ⟨more, following, hlayout⟩ := exists_layOut word words
      rw [hlayout] at hjoin
      rw [layOut, hlayout, List.append_assoc, List.map_cons, hline.trim_eq hindent hbehind,
        List.map_cons, join_cons_cons, ← List.map_cons, hjoin, Gap.text]

/-- **A call is laid out up to the word that closes it**, if the words before it close what they
open. -/
theorem closesAtLast_layOut {words : List (Gap × Text)} (hwords : ∀ w ∈ words, parenDepth w.2 = 0)
    (g : Gap) {last : Text} (hlast : parenDepth last = -1) {line : Text} {depth : Int}
    (hline : depth + parenDepth line = 1) :
    ∃ first following, layOut line (words ++ [(g, last)]) = first :: following ∧
      ClosesAtLast (depth + parenDepth first) following := by
  have hblank {t : Text} (ht : ∀ c ∈ t, isBlank c = true) : parenDepth t = 0 :=
    (ParensNested.of_isBlank ht).closed
  induction words generalizing line depth with
  | nil =>
    cases g with
    | blanks inside h =>
      refine ⟨_, [], rfl, ?_⟩
      rw [ClosesAtLast, parenDepth_append, parenDepth_append, hblank h]
      omega
    | lineBreak behind indent hbehind hindent =>
      refine ⟨_, [indent ++ last], rfl, ?_⟩
      rw [ClosesAtLast, ClosesAtLast, parenDepth_append, parenDepth_append, hblank hbehind,
        hblank hindent]
      omega
  | cons word words ih =>
    obtain ⟨g', word⟩ := word
    obtain ⟨hword, hrest⟩ := List.forall_mem_cons.1 hwords
    cases g' with
    | blanks inside h =>
      have hnext : depth + parenDepth (line ++ (inside ++ word)) = 1 := by
        rw [parenDepth_append, parenDepth_append, hblank h, hword]
        omega
      exact ih hrest hnext
    | lineBreak behind indent hbehind hindent =>
      have hnext : 1 + parenDepth (indent ++ word) = 1 := by
        rw [parenDepth_append, hblank hindent, hword]
        rfl
      obtain ⟨first, following, hlayout, hcloses⟩ := ih hrest hnext
      have hopen : depth + parenDepth (line ++ behind) = 1 := by
        rw [parenDepth_append, hblank hbehind]
        omega
      refine ⟨line ++ behind, first :: following, ?_, ?_⟩
      · rw [List.cons_append, layOut, hlayout]
      · rw [hopen]
        exact ⟨Int.one_pos, hcloses⟩

/-! ## Signatures -/

/-- The text of a parameter: trimmed, with its brackets nested and its quotes closed, and no comma
outside of them. The parentheses are nested also when those in quotes are counted, and a quote is
closed by the next same character, escaped or not. -/
structure Parameter where
  text : Text
  closed : Closed (· ≠ ',') text
  parens : ParensNested text
  trimmed : trim text = text
  nonempty : text ≠ []

/-- The text of a return annotation. -/
structure Annotation where
  text : Text
  trimmed : trim text = text
  nonempty : text ≠ []
  noColon : ':' ∉ text
  noParens : '(' ∉ text ∧ ')' ∉ text

/-- A signature with its line breaks. -/
structure SignatureLayout where
  /-- The parameters, each with the gap between it and the parenthesis or the comma before it. -/
  params : List (Gap × Parameter)
  /-- A comma follows the last parameter. -/
  trailingComma : Bool
  /-- The gap before the closing parenthesis. -/
  closing : Gap
  returns : Option Annotation

/-- The parameters with the commas after them. -/
def listing (trailingComma : Bool) : List (Gap × Parameter) → List (Gap × Text)
  | [] => []
  | [(g, p)] => [(g, if trailingComma then p.text ++ [','] else p.text)]
  | (g, p) :: q :: params => (g, p.text ++ [',']) :: listing trailingComma (q :: params)

theorem Parameter.solid (p : Parameter) : Solid p.text := .of_trim p.trimmed p.nonempty

/-- Between blanks, a parameter is one argument. -/
theorem Parameter.closed_between (p : Parameter) {s u : Text} (hs : ∀ c ∈ s, isBlank c = true)
    (hu : ∀ c ∈ u, isBlank c = true) :
    Closed (· ≠ ',') (s ++ (p.text ++ u)) ∧
      [trim (s ++ (p.text ++ u))].filter (· ≠ []) = [p.text] := by
  refine ⟨(Closed.of_isBlank hs).append (p.closed.append (.of_isBlank hu)), ?_⟩
  rw [p.solid.trim_eq hs hu, List.filter_singleton]
  simp [p.nonempty]

theorem parensNested_oneLine {words : List (Gap × Text)} (h : ∀ w ∈ words, ParensNested w.2) :
    ParensNested (oneLine words) := by
  induction words with
  | nil => exact .of_isBlank (List.forall_mem_nil _)
  | cons word words ih =>
    obtain ⟨hword, hwords⟩ := List.forall_mem_cons.1 h
    rw [oneLine_cons]
    exact (ParensNested.of_isBlank word.1.isBlank_of_mem_text).append (hword.append (ih hwords))

section Listing

variable (trailingComma : Bool) (params : List (Gap × Parameter))

/-- What holds of parameters with and without a comma holds of all words of a list. -/
theorem forall_mem_listing {P : Text → Prop} (h : ∀ p : Parameter, P p.text ∧ P (p.text ++ [','])) :
    ∀ w ∈ listing trailingComma params, P w.2 := by
  fun_induction listing trailingComma params with
  | case1 => exact List.forall_mem_nil _
  | case2 g p =>
    rw [List.forall_mem_singleton]
    split
    · exact (h p).2
    · exact (h p).1
  | case3 g p q params ih => exact List.forall_mem_cons.2 ⟨(h p).2, ih⟩

theorem solid_of_mem_listing : ∀ w ∈ listing trailingComma params, Solid w.2 := by
  refine forall_mem_listing trailingComma params fun p => ⟨p.solid, ?_⟩
  exact p.solid.append (t := [',']) (.singleton (by decide)) []

theorem parensNested_of_mem_listing : ∀ w ∈ listing trailingComma params, ParensNested w.2 :=
  forall_mem_listing trailingComma params fun p =>
    ⟨p.parens, p.parens.append (.of_not_mem (by decide) (by decide))⟩

/-- **The parameters are cut at the commas between them**, and nothing is left behind a trailing
one. -/
theorem arguments_listing {e : Text} (he : ∀ c ∈ e, isBlank c = true) :
    arguments (oneLine (listing trailingComma params) ++ e) = params.map (·.2.text) := by
  have hend : arguments e = [] := by
    rw [arguments_of_closed (.of_isBlank he), trim_eq_nil he]
    rfl
  -- a parameter is cut off at the comma behind it
  have hcut (g : Gap) (p : Parameter) (rest : Text) :
      arguments (g.text ++ (p.text ++ ',' :: rest)) = p.text :: arguments rest := by
    obtain ⟨hclosed, htrim⟩ := p.closed_between g.isBlank_of_mem_text (List.forall_mem_nil _)
    rw [List.append_nil] at hclosed htrim
    rw [← List.append_assoc, arguments_append_comma hclosed, htrim, List.singleton_append]
  fun_induction listing trailingComma params with
  | case1 => exact hend
  | case2 g p =>
    rw [oneLine_cons]
    cases trailingComma with
    | false =>
      obtain ⟨hclosed, htrim⟩ := p.closed_between g.isBlank_of_mem_text he
      have hargs := arguments_of_closed hclosed
      rw [htrim] at hargs
      simpa [oneLine] using hargs
    | true =>
      have hargs := hcut g p e
      rw [hend] at hargs
      simpa [oneLine] using hargs
  | case3 g p q params ih =>
    have hargs := hcut g p (oneLine (listing trailingComma (q :: params)) ++ e)
    rw [ih] at hargs
    rw [oneLine_cons]
    simpa using hargs

end Listing

namespace SignatureLayout

variable (L : SignatureLayout)

/-- What follows the closing parenthesis. -/
def ending : Text := (L.returns.elim [] fun r => " -> ".toList ++ r.text) ++ [':']

/-- The words after the opening parenthesis. -/
def words : List (Gap × Text) :=
  listing L.trailingComma L.params ++ [(L.closing, ')' :: L.ending)]

/-- The lines of a function header that is written so, with `head` before the parameters. -/
def lines (head : Text) : List Text := layOut (head ++ ['(']) L.words

theorem returnAnnotation?_ending : returnAnnotation? L.ending = L.returns.map (·.text) := by
  unfold ending
  cases L.returns with
  | none => rfl
  | some r =>
    simp only [Option.elim_some, Option.map_some, List.append_assoc]
    exact returnAnnotation?_arrow r.nonempty r.trimmed r.noColon

theorem parenDepth_closing : parenDepth (')' :: L.ending) = -1 := by
  have hending : parenDepth L.ending = 0 := by
    unfold ending
    cases L.returns with
    | none => decide
    | some r =>
      have hreturns : parenDepth r.text = 0 := parenDepth_of_not_mem r.noParens.1 r.noParens.2
      rw [Option.elim_some, parenDepth_append, parenDepth_append, hreturns]
      decide
  rw [parenDepth_cons, hending]
  rfl

theorem solid_closing : Solid (')' :: L.ending) :=
  (Solid.singleton (by decide)).append (.singleton (by decide))
    (L.returns.elim [] fun r => " -> ".toList ++ r.text)

theorem solid_of_mem_words : ∀ w ∈ L.words, Solid w.2 :=
  List.forall_mem_append.2
    ⟨solid_of_mem_listing _ _, List.forall_mem_singleton.2 L.solid_closing⟩

/-- The signature that the joined lines hold. -/
theorem ofText_oneLine : Signature.ofText ('(' :: oneLine L.words) =
    ⟨L.params.map (·.2.text), L.returns.map (·.text)⟩ := by
  have hparens : ParensNested (oneLine (listing L.trailingComma L.params) ++ L.closing.text) :=
    (parensNested_oneLine (parensNested_of_mem_listing _ _)).append
      (.of_isBlank L.closing.isBlank_of_mem_text)
  have htext : oneLine L.words =
      oneLine (listing L.trailingComma L.params) ++ L.closing.text ++ ')' :: L.ending := by
    simp [words, oneLine]
  rw [htext, Signature.ofText_parenthesised hparens,
    arguments_listing _ _ L.closing.isBlank_of_mem_text, returnAnnotation?_ending]

/-- The look-ahead takes the lines of the signature and no other. -/
theorem collectCall_layOut {more : Text} {following : List Text}
    (h : layOut ['('] L.words = ('(' :: more) :: following) (rest : List Text) :
    collectCall ('(' :: more) (following ++ rest) =
    ⟨'(' :: oneLine L.words, following.length, true⟩ := by
  have hdepth : ∀ w ∈ listing L.trailingComma L.params, parenDepth w.2 = 0 := fun w hw =>
    (parensNested_of_mem_listing _ _ w hw).closed
  have hopen : 0 + parenDepth ['('] = 1 := by decide
  obtain ⟨first, following', hlayout, hcloses⟩ :=
    closesAtLast_layOut hdepth L.closing L.parenDepth_closing hopen
  obtain ⟨rfl, rfl⟩ := List.cons.inj (h.symm.trans hlayout)
  rw [Int.zero_add] at hcloses
  have hparen : Solid ['('] := .singleton (by decide)
  have hjoin := join_trim_layOut L.solid_of_mem_words (List.forall_mem_nil _) hparen
  rw [List.nil_append, h] at hjoin
  rw [collectCall_append hcloses, hjoin]
  rfl

/-- **Reading a signature undoes its layout.** Wherever the lines are broken and however they are
indented, the parameters and the annotation are those that were laid out, and of the following lines
those of the signature are taken. -/
theorem readSignature_lines {head name : Text} {isAsync : Bool}
    (hhead : defHeader? (head ++ ['(']) = some ⟨isAsync, name, ['(']⟩) :
    ∃ line following call, L.lines head = line :: following ∧
      defHeader? line = some ⟨isAsync, name, call⟩ ∧
      ∀ rest, readSignature call (following ++ rest) =
        (⟨L.params.map (·.2.text), L.returns.map (·.text)⟩, following.length) := by
  obtain ⟨more, following, hlayout⟩ := exists_layOut ['('] L.words
  have hcall : layOut ['('] L.words = ('(' :: more) :: following := hlayout []
  refine ⟨head ++ '(' :: more, following, '(' :: more, hlayout head, ?_, fun rest => ?_⟩
  · have hheader := defHeader?_append hhead more
    rwa [List.append_assoc] at hheader
  · rw [readSignature, L.collectCall_layOut hcall rest]
    simp only [↓reduceIte, L.ofText_oneLine]

end SignatureLayout

/-- A header over four lines, with commas and parentheses in quotes and brackets. -/
def sampleLayout : SignatureLayout where
  params :=
    [(.lineBreak [] "    ".toList (by decide) (by decide),
      { text := "self".toList
        closed := .of_forall (by decide)
        parens := by decide +kernel
        trimmed := by decide +kernel
        nonempty := by decide }),
     (.blanks " ".toList (by decide),
      { text := "key: str = ".toList ++ ('"' :: ("a, (b)".toList ++ ['"']))
        closed := (Closed.of_forall (by decide)).append (.quoted rfl (by decide) (.nil _))
        parens := by decide +kernel
        trimmed := by decide +kernel
        nonempty := by decide }),
     (.lineBreak [] "\t".toList (by decide) (by decide),
      { text := "*rest: dict".toList ++ ('[' :: ("str, int".toList ++ [']']))
        closed :=
          (Closed.of_forall (by decide)).append (.group rfl (.of_forall (by decide)) (.nil _))
        parens := by decide +kernel
        trimmed := by decide +kernel
        nonempty := by decide })]
  trailingComma := true
  closing := .lineBreak " ".toList [] (by decide) (by decide)
  returns := some
    { text := "list[str]".toList
      trimmed := by decide +kernel
      nonempty := by decide
      noColon := by decide
      noParens := by decide }

theorem readSignature_lines_sample :
    defHeader? ("async def f".toList ++ ['(']) = some ⟨true, "f".toList, ['(']⟩ ∧
      sampleLayout.lines "async def f".toList =
        ["async def f(".toList, "    self, key: str = \"a, (b)\",".toList,
          "\t*rest: dict[str, int], ".toList, ") -> list[str]:".toList] ∧
      ∃ line following call, sampleLayout.lines "async def f".toList = line :: following ∧
        defHeader? line = some ⟨true, "f".toList, call⟩ ∧
        ∀ rest, readSignature call (following ++ rest) =
          (⟨sampleLayout.params.map (·.2.text), sampleLayout.returns.map (·.text)⟩,
            following.length) :=
  ⟨by decide +kernel, by decide +kernel, sampleLayout.readSignature_lines (by decide +kernel)⟩

end CodeIndex.Indented
