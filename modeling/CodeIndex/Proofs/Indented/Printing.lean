import CodeIndex.Proofs.Indented.Lookahead
import CodeIndex.Proofs.Indented.Source

/-!
# What the recognisers read in printed lines

The header of a printed function is recognised with its name and signature (`defHeader?_header`,
`readSignature_call`), that of a class with its name (`classHeader?_header`), and neither takes any
line after it. No printed line holds a line boundary (`singleLine_of_mem_lines`), so the lines of a
printed module are those that were printed (`lines_print`).
-/

namespace CodeIndex.Indented

open Text

namespace Source

/-! ## Pieces -/

theorem indentation_indented (n : Nat) {c : Char} (hc : isBlank c = false) (t : Text) :
    indentation (indented n (c :: t)) = n := by
  rw [indented, indentation_append (isBlank_of_mem_replicate n) hc, List.length_replicate]

theorem trimLeft_indented (n : Nat) {c : Char} (hc : isBlank c = false) (t : Text) :
    trimLeft (indented n (c :: t)) = c :: t := by
  rw [indented, trimLeft_append (isBlank_of_mem_replicate n), trimLeft_cons hc]

theorem quoteFree_indented {t : Text} (h : QuoteFree t) (n : Nat) : QuoteFree (indented n t) :=
  quoteFree_append.2 ⟨quoteFree_of_isBlank (isBlank_of_mem_replicate n), h⟩

theorem singleLine_indented {t : Text} (h : SingleLine t) (n : Nat) :
    SingleLine (indented n t) := by
  refine singleLine_append.2 ⟨fun c hc => ?_, h⟩
  rw [List.eq_of_mem_replicate hc]
  decide

theorem Name.quoteFree (a : Name) : QuoteFree a.text := quoteFree_of_isWord a.word

theorem Name.singleLine (a : Name) : SingleLine a.text :=
  fun c hc => isLineBoundary_of_isWord (a.word c hc)

theorem Param.isArgument (p : Param) : IsArgument p.text :=
  ⟨p.nested, p.quoteFree, p.trimmed, p.nonempty⟩

theorem Name.nested (a : Name) : Nested (fun _ => True) a.text := by
  refine Nested.of_forall fun c hc => ?_
  by_contra hb
  have hword := a.word c hc
  simp only [isBracket, Bool.not_eq_false, Bool.or_eq_true, decide_eq_true_eq] at hb
  rcases hb with ((((rfl | rfl) | rfl) | rfl) | rfl) | rfl <;> exact absurd hword (by decide)

/-- What holds of the characters of some pieces, of comma and space holds of their list. -/
theorem forall_mem_commaList_map {α : Type} {P : Char → Prop} (hc : P ',') (hs : P ' ')
    {text : α → Text} (h : ∀ a, ∀ c ∈ text a, P c) (args : List α) :
    ∀ c ∈ commaList (args.map text), P c := by
  refine forall_mem_commaList hc hs fun t ht => ?_
  obtain ⟨a, -, rfl⟩ := List.mem_map.1 ht
  exact h a

/-! ## Functions -/

namespace Function

variable {depth : Nat} (f : Function depth)

theorem header_eq_cons : ∃ c t, f.header = c :: t ∧ (c = 'a' ∨ c = 'd') := by
  unfold header
  cases f.isAsync with
  | true => exact ⟨_, _, rfl, .inl rfl⟩
  | false => exact ⟨_, _, rfl, .inr rfl⟩

/-- The end of a header is nested, on one line and without quotes. -/
theorem ending_spec :
    Nested (fun _ => True) f.ending ∧ SingleLine f.ending ∧ QuoteFree f.ending := by
  have hcolon : Nested (fun _ => True) [':'] := .of_forall (by decide)
  unfold ending
  cases f.returns with
  | none => exact ⟨hcolon, by decide, by decide⟩
  | some r =>
    have harrow : Nested (fun _ => True) " -> ".toList := .of_forall (by decide)
    refine ⟨(harrow.append r.nested).append hcolon, ?_, ?_⟩
    · simp only [Option.elim_some, singleLine_append]
      exact ⟨⟨by decide, r.singleLine⟩, by decide⟩
    · simp only [Option.elim_some, quoteFree_append]
      exact ⟨⟨by decide, r.quoteFree⟩, by decide⟩

theorem quoteFree_header : QuoteFree f.header := by
  have hparams : QuoteFree (commaList (f.params.map (·.text))) :=
    forall_mem_commaList_map (by decide) (by decide) Phrase.quoteFree f.params
  simp only [header, call, quoteFree_append, quoteFree_cons]
  refine ⟨?_, by decide, f.name.quoteFree, by decide, hparams, by decide, f.ending_spec.2.2⟩
  cases f.isAsync <;> decide

theorem singleLine_header : SingleLine f.header := by
  have hparams : SingleLine (commaList (f.params.map (·.text))) :=
    forall_mem_commaList_map (by decide) (by decide) Phrase.singleLine f.params
  simp only [header, call, singleLine_append, singleLine_cons]
  refine ⟨?_, by decide, f.name.singleLine, by decide, hparams, by decide, f.ending_spec.2.1⟩
  cases f.isAsync <;> decide

theorem defHeader?_header :
    defHeader? (indented depth f.header) = some ⟨f.isAsync, f.name.text, f.call⟩ :=
  defHeader?_def (isBlank_of_mem_replicate depth) f.name.nonempty f.name.word f.isAsync _

theorem returnAnnotation?_ending : returnAnnotation? f.ending = f.returns.map (·.text) := by
  unfold ending
  cases f.returns with
  | none => rfl
  | some r =>
    simp only [Option.elim_some, Option.map_some, List.append_assoc]
    exact returnAnnotation?_arrow r.nonempty r.trimmed r.noColon

/-- **The signature of a printed header.** -/
theorem readSignature_call (following : List Text) :
    readSignature f.call following = (⟨f.params.map (·.text), f.returns.map (·.text)⟩, 0) := by
  have hargs : ∀ a ∈ f.params.map (·.text), IsArgument a := by
    intro a ha
    obtain ⟨p, -, rfl⟩ := List.mem_map.1 ha
    exact p.isArgument
  have htrim : trim f.call = f.call := by
    have := trim_cons_append_singleton (show isBlank '(' = false by decide)
      (show isBlank ':' = false by decide)
      (commaList (f.params.map (·.text)) ++
        ')' :: f.returns.elim [] fun r => " -> ".toList ++ r.text)
    simpa only [call, ending, List.append_assoc, List.cons_append] using this
  rw [call, readSignature_commaList hargs f.ending_spec.1 htrim, returnAnnotation?_ending]

end Function

/-! ## Classes -/

/-- What holds of the characters of the arguments of a column holds of its call. -/
theorem forall_mem_column {P : Char → Prop} (h : ∀ c ∈ " = Column(), ".toList, P c)
    {type : ColumnType} {args : List Code} (ht : ∀ c ∈ type.text, P c)
    (ha : ∀ a : Code, ∀ c ∈ a.text, P c) :
    ∀ c ∈ " = Column(".toList ++ (commaList (type.text :: args.map (·.text)) ++ [')']), P c := by
  have hlist : ∀ c ∈ commaList (type.text :: args.map (·.text)), P c := by
    refine forall_mem_commaList (h _ (by decide)) (h _ (by decide)) fun a hm => ?_
    rcases List.mem_cons.1 hm with rfl | hm
    · exact ht
    · obtain ⟨p, -, rfl⟩ := List.mem_map.1 hm
      exact ha p
  simp only [List.forall_mem_append, List.forall_mem_singleton]
  exact ⟨fun c hc => h c (List.mem_append_left _ hc), hlist, h _ (by decide)⟩

namespace Class

variable (c : Class)

/-- The name in a header is followed by the base list or the colon. -/
theorem header_eq :
    ∃ x t, c.header = "class ".toList ++ (c.name.text ++ x :: t) ∧ (x = '(' ∨ x = ':') := by
  unfold header
  split
  · exact ⟨':', [], rfl, .inr rfl⟩
  · exact ⟨'(', _, rfl, .inl rfl⟩

theorem classHeader?_header : classHeader? c.header = some c.name.text := by
  obtain ⟨x, t, hc, hx⟩ := c.header_eq
  rw [hc, classHeader?_class c.name.nonempty c.name.word hx]

theorem forall_mem_header {P : Char → Prop} (h : ∀ c ∈ "clas (,):".toList, P c)
    (hn : ∀ a : Name, ∀ c ∈ a.text, P c) : ∀ x ∈ c.header, P x := by
  have hbases : ∀ x ∈ commaList (c.bases.map (·.text)), P x :=
    forall_mem_commaList_map (h _ (by decide)) (h _ (by decide)) hn c.bases
  unfold header
  simp only [List.forall_mem_append]
  refine ⟨fun x hx => h x ?_, hn c.name, ?_, fun x hx => h x ?_⟩
  · revert x
    decide
  · split
    · exact fun x hx => absurd hx List.not_mem_nil
    · simp only [List.forall_mem_cons, List.forall_mem_append]
      exact ⟨h _ (by decide), hbases, h _ (by decide), by simp⟩
  · revert x
    decide

theorem quoteFree_header : QuoteFree c.header := c.forall_mem_header (by decide) Name.quoteFree

theorem singleLine_header : SingleLine c.header := c.forall_mem_header (by decide) Name.singleLine

/-- A printed class header takes no line after it. -/
theorem baseLines_header (following : List Text) : baseLines c.header following = 0 := by
  have hname : '(' ∉ "class ".toList ++ c.name.text := by
    rw [List.mem_append]
    rintro (h | h)
    · exact absurd h (by decide)
    · exact absurd (c.name.word _ h) (by decide)
  unfold header
  split
  · refine baseLines_of_not_mem ?_ following
    rw [← List.append_assoc, List.mem_append]
    rintro (h | h)
    · exact hname h
    · exact absurd h (by decide)
  · have hbases : Nested (fun _ => True) (commaList (c.bases.map (·.text))) := by
      refine nested_commaList fun a ha => ?_
      obtain ⟨b, -, rfl⟩ := List.mem_map.1 ha
      exact b.nested
    have hcolon : Nested (fun _ => True) [':'] := .of_forall (by decide)
    have htrim := trim_cons_append_singleton (show isBlank '(' = false by decide)
      (show isBlank ':' = false by decide) (commaList (c.bases.map (·.text)) ++ [')'])
    rw [List.append_assoc, List.singleton_append] at htrim
    have := baseLines_nested hname hbases hcolon htrim following
    simpa only [List.append_assoc, List.cons_append, List.singleton_append, List.nil_append] using
      this

end Class

/-! ## Lines of a module -/

theorem singleLine_of_mem_docLines {k : Nat} {doc : Option Docstring} :
    ∀ l ∈ docLines k doc, SingleLine l := by
  intro l hl
  obtain ⟨d, -, rfl⟩ := List.mem_map.1 hl
  refine singleLine_indented ?_ k
  simp only [singleLine_append]
  exact ⟨by decide, d.singleLine, by decide⟩

theorem Function.singleLine_of_mem_lines {depth : Nat} (f : Function depth) :
    ∀ l ∈ f.lines, SingleLine l := by
  simp only [Function.lines, List.forall_mem_cons, List.forall_mem_append]
  refine ⟨singleLine_indented f.singleLine_header depth, singleLine_of_mem_docLines, fun l hl => ?_⟩
  obtain ⟨b, -, rfl⟩ := List.mem_map.1 hl
  exact b.singleLine

theorem Member.singleLine_of_mem_lines (m : Member) : ∀ l ∈ m.lines, SingleLine l := by
  cases m with
  | typed name type =>
    simp only [Member.lines, List.forall_mem_singleton]
    refine singleLine_indented ?_ 4
    simp only [singleLine_append]
    exact ⟨name.singleLine, by decide, type.singleLine⟩
  | column name type args =>
    simp only [Member.lines, List.forall_mem_singleton]
    refine singleLine_indented (singleLine_append.2 ⟨name.singleLine, ?_⟩) 4
    exact forall_mem_column (by decide) type.singleLine Phrase.singleLine
  | method f => exact f.singleLine_of_mem_lines

theorem Class.singleLine_of_mem_lines (c : Class) : ∀ l ∈ c.lines, SingleLine l := by
  simp only [Class.lines, Class.bodyLines, List.forall_mem_cons, List.forall_mem_append]
  refine ⟨c.singleLine_header, singleLine_of_mem_docLines, fun l hl => ?_, ?_⟩
  · obtain ⟨m, -, hm⟩ := List.mem_flatMap.1 hl
    exact m.singleLine_of_mem_lines l hm
  · split
    · simp only [List.forall_mem_singleton]
      exact singleLine_indented (by decide) 4
    · exact fun l hl => absurd hl List.not_mem_nil

/-- **A printed line is one line.** -/
theorem Item.singleLine_of_mem_lines (gap : Nat) (i : Item) : ∀ l ∈ i.lines gap, SingleLine l := by
  have hgap : ∀ l ∈ List.replicate gap ([] : Text), SingleLine l := fun l hl =>
    List.eq_of_mem_replicate hl ▸ singleLine_nil
  cases i with
  | function f => exact List.forall_mem_append.2 ⟨f.singleLine_of_mem_lines, hgap⟩
  | «class» c => exact List.forall_mem_append.2 ⟨c.singleLine_of_mem_lines, hgap⟩

theorem lines_print (gap : Nat) (items : List Item) :
    Text.lines (print gap items) = items.flatMap (Item.lines gap) := by
  refine lines_unlines fun l hl => ?_
  obtain ⟨i, -, hi⟩ := List.mem_flatMap.1 hl
  exact i.singleLine_of_mem_lines gap l hi

end Source

end CodeIndex.Indented
