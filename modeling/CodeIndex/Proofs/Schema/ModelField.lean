import CodeIndex.Proofs.Schema.ClassSpan
import CodeIndex.Schema.ModelField

/-!
# Every model field belongs to one table

In a content whose lines end in line feeds, the spans of the classes of its outline start at their
headers and follow one another (`snd_classSpan_le`): the header of the next class is one of the
places at which a span may end. The columns of a table are read at places of its span
(`fieldPlaces`), each of which assigns a model field (`IsField`). So all columns of all tables are
read at different places, and the class of a table is the last one with its header before the place
(`modelColumns_attributed`).
-/

namespace CodeIndex.Schema

open Text Indented

variable {content : Text}

/-! ## Spans of classes -/

theorem topLevelClass_of_startsWithHeader {name t : Text} {before : Option Char}
    (hbefore : startsLine before = true) (h : StartsWithHeader name t) :
    (topLevelClass before t).isSome = true := by
  obtain ⟨s, rest, rfl, hne, hs⟩ := h
  simp only [topLevelClass, hbefore, guard_true, after?_append, blanks1?_append hne hs,
    Option.bind_eq_bind, Option.bind_some, Option.pure_def, Option.isSome_some]

/-- A class whose header stands on the line with index `k`, and there starts its span. -/
structure StartsSpan (content : Text) (c : ClassDecl) (k : Nat) : Prop where
  line : c.line = ((k + 1 : Nat) : Int)
  read : ∃ header, (lines content)[k]? = some header
  startsLine : startsLine (charBefore? content (classSpan content c.line).1) = true
  header : StartsWithHeader c.name (content.drop (classSpan content c.line).1)

theorem StartsWithHeader.ne_nil {name t : Text} (h : StartsWithHeader name t) : t ≠ [] := by
  obtain ⟨s, rest, rfl, -⟩ := h
  exact List.cons_ne_nil _ _

theorem stop_le_length (content : Text) (n : Int) : (classSpan content n).2 ≤ content.length := by
  rw [classSpan]
  dsimp only
  split
  · next hit hsearch => exact (searchFromPos?_eq_some_iff.1 hsearch).inside
  · exact le_rfl

section Span

variable {c c' : ClassDecl} {k k' : Nat}

theorem StartsSpan.fst_lt (h : StartsSpan content c k) :
    (classSpan content c.line).1 < (classSpan content c.line).2 := by
  have hlength : (classSpan content c.line).1 < content.length := by
    by_contra hge
    exact h.header.ne_nil (List.drop_eq_nil_of_le (Nat.le_of_not_lt hge))
  rw [classSpan] at hlength ⊢
  dsimp only at hlength ⊢
  split
  · next hit hsearch => exact (searchFromPos?_eq_some_iff.1 hsearch).le
  · exact hlength

/-- **The span of a class ends before the header of each later class.** -/
theorem StartsSpan.snd_le (hfeeds : EndsInFeeds content) (h : StartsSpan content c k)
    (h' : StartsSpan content c' k') (hlt : k < k') :
    (classSpan content c.line).2 ≤ (classSpan content c'.line).1 := by
  obtain ⟨header, hread⟩ := h'.read
  have hstart : (classSpan content c.line).1 < (classSpan content c'.line).1 := by
    have := lineOffset_lt hfeeds hread hlt
    rwa [← h.line, ← h'.line] at this
  have hinside : (classSpan content c'.line).1 ≤ content.length :=
    Nat.le_of_lt (h'.fst_lt.trans_le (stop_le_length content _))
  have hhit : (hitIn? topLevelClass content (classSpan content c'.line).1).isSome = true := by
    rw [hitIn?, hitAt?, Option.isSome_map]
    exact topLevelClass_of_startsWithHeader h'.startsLine h'.header
  obtain ⟨hit, hfirst, hle⟩ := exists_isFirstHit hstart hinside hhit
  have hstop : (classSpan content c.line).2 = hit.start := by
    rw [classSpan] at hfirst ⊢
    rw [searchFromPos?_eq_some_iff.2 hfirst]
  rwa [hstop]

end Span

/-- The line with a class header starts the span of its class. -/
theorem startsSpan_of_getElem? (hfeeds : EndsInFeeds content) {header : Text} {c : ClassDecl}
    {k : Nat} (hline : c.line = ((k + 1 : Nat) : Int)) (hread : (lines content)[k]? = some header)
    (hheader : classHeader? header = some c.name) : StartsSpan content c k := by
  obtain ⟨ls, rest, rfl, rfl, hls, -⟩ := exists_unlines_of_getElem? hfeeds hread
  have hstart : (classSpan (unlines ls ++ (header ++ rest)) c.line).1 = (unlines ls).length := by
    rw [hline]
    exact lineOffset_unlines_append hls _
  refine ⟨hline, ⟨header, hread⟩, ?_, ?_⟩
  · rw [hstart]
    exact startsLine_charBefore? ls _
  · rw [hstart, List.drop_left]
    exact startsWithHeader_of_prefix hheader (List.prefix_append header rest)

/-! ## Places of fields -/

/-- Behind the character `before`, a line assigns a model field: after spaces and tabs stand the
name, an equals sign, `models.`, the kind of the field, and a parenthesis. -/
def IsField (before : Option Char) (t name kind rest : Text) : Prop :=
  startsLine before = true ∧ ∃ s s' s'',
    t = s ++ (name ++ (s' ++ '=' :: (s'' ++ ("models.".toList ++ (kind ++ '(' :: rest))))) ∧
    s ≠ [] ∧ (∀ c ∈ s, isSpaceOrTab c = true) ∧ name ≠ [] ∧ (∀ c ∈ name, isWord c = true) ∧
    (∀ c ∈ s', isBlank c = true) ∧ (∀ c ∈ s'', isBlank c = true) ∧ kind ≠ [] ∧
    ∀ c ∈ kind, isWord c = true

theorem isField_of_modelField {before : Option Char} {t name kind rest : Text}
    (h : modelField before t = some ((name, kind), rest)) : IsField before t name kind rest := by
  simp only [modelField, Option.bind_eq_bind, Option.bind_eq_some_iff, Option.guard_eq_some'] at h
  obtain ⟨-, hbefore, h⟩ := h
  refine ⟨hbefore, ?_⟩
  split at h
  · exact absurd h (by simp)
  · next s t₁ hne hspan =>
    simp only [Option.bind_eq_some_iff] at h
    obtain ⟨⟨name', t₂⟩, hname, t₃, hequals, t₄, hmodels, ⟨kind', t₅⟩, hkind, t₆, hparen,
        hresult⟩ := h
    obtain ⟨⟨rfl, rfl⟩, rfl⟩ : (name' = name ∧ kind' = kind) ∧ t₆ = rest := by simpa using hresult
    obtain ⟨hname₀, hname₁, rfl⟩ := of_word? hname
    obtain ⟨hkind₀, hkind₁, rfl⟩ := of_word? hkind
    obtain rfl : t₅ = '(' :: t₆ := after?_eq_some_iff.1 hparen
    -- the blanks around the equals sign
    obtain ⟨s', hs', ht₂⟩ := exists_blanks_append_trimLeft t₂
    obtain ⟨s'', hs'', ht₃⟩ := exists_blanks_append_trimLeft t₃
    rw [after?_eq_some_iff.1 hequals] at ht₂
    rw [after?_eq_some_iff.1 hmodels] at ht₃
    rw [List.span_eq_takeWhile_dropWhile] at hspan
    obtain ⟨hs, ht₁⟩ := Prod.mk.inj hspan
    refine ⟨s, s', s'', ?_, hne, ?_, hname₀, hname₁, hs', hs'', hkind₀, hkind₁⟩
    · rw [← List.takeWhile_append_dropWhile (p := isSpaceOrTab) (l := t), hs, ht₁, ht₂, ht₃]
      rfl
    · rw [← hs]
      exact fun c hc => List.mem_takeWhile_imp hc

/-- What follows the parenthesis does not matter. -/
theorem IsField.append {before : Option Char} {t name kind rest : Text}
    (h : IsField before t name kind rest) (u : Text) :
    IsField before (t ++ u) name kind (rest ++ u) := by
  obtain ⟨hbefore, s, s', s'', rfl, h⟩ := h
  exact ⟨hbefore, s, s', s'', by simp only [List.append_assoc, List.cons_append], h⟩

/-- No field stands where a class header does. -/
theorem IsField.not_startsWithHeader {before : Option Char} {t name kind rest cls : Text}
    (h : IsField before t name kind rest) : ¬ StartsWithHeader cls t := by
  rintro ⟨u, rest', hclass, -⟩
  obtain ⟨-, s, s', s'', rfl, hne, hs, -⟩ := h
  obtain ⟨c, s, rfl⟩ := List.exists_cons_of_ne_nil hne
  obtain rfl : c = 'c' := (List.cons.inj hclass).1
  exact absurd (hs 'c' (by simp)) (by decide)

/-- The positions in the content at which the columns of the class on a line are read. -/
def fieldPlaces (content : Text) (line : Int) : List Nat :=
  let (start, stop) := classSpan content line
  (searchAll modelField ((content.take stop).drop start)).map fun hit => start + hit.start

/-- The name and the kind of the column stand at a position of the content. -/
def ReadAt (content : Text) (column : Column) (p : Nat) : Prop :=
  ∃ rest, IsField (charBefore? content p) (content.drop p) column.name column.type rest

section Places

variable {c : ClassDecl} {k : Nat} (h : StartsSpan content c k)
include h

/-- The content is what stands before the span of a class, the span, and the rest. -/
theorem StartsSpan.exists_append : ∃ before span rest : Text,
    content = before ++ (span ++ rest) ∧ (classSpan content c.line).1 = before.length ∧
      (classSpan content c.line).2 = before.length + span.length ∧
      (content.take (classSpan content c.line).2).drop (classSpan content c.line).1 = span := by
  have hlt := h.fst_lt
  have hle := stop_le_length content c.line
  generalize (classSpan content c.line).1 = start at *
  generalize (classSpan content c.line).2 = stop at *
  have hstart : (content.take start).length = start := List.length_take_of_le (by omega)
  have hspan : ((content.take stop).drop start).length = stop - start := by
    rw [List.length_drop, List.length_take_of_le hle]
  refine ⟨content.take start, (content.take stop).drop start, content.drop stop, ?_, hstart.symm,
    ?_, rfl⟩
  · have hbefore : content.take start = (content.take stop).take start := by
      rw [List.take_take, min_eq_left hlt.le]
    rw [← List.append_assoc, hbefore, List.take_append_drop, List.take_append_drop]
  · omega

/-- **A field in the span of a class is one of the content**, behind the header of the class. -/
theorem StartsSpan.isField_of_mem {hit : Hit (Text × Text)}
    (hhit : hit ∈ searchAll modelField
      ((content.take (classSpan content c.line).2).drop (classSpan content c.line).1)) :
    (0 < hit.start ∧ (classSpan content c.line).1 + hit.start < (classSpan content c.line).2) ∧
      ∃ rest, IsField (charBefore? content ((classSpan content c.line).1 + hit.start))
        (content.drop ((classSpan content c.line).1 + hit.start)) hit.value.1 hit.value.2 rest := by
  obtain ⟨before, span, rest, hcontent, hstart, hstop, hspan⟩ := h.exists_append
  have hheader := h.header
  rw [hstart, hcontent, List.drop_left] at hheader
  rw [hspan] at hhit
  obtain ⟨hinside, hfound⟩ := hitIn?_of_mem_searchAll hhit
  have hfield : IsField (charBefore? span hit.start) (span.drop hit.start) hit.value.1 hit.value.2
      hit.rest := isField_of_modelField (of_hitIn? hfound).2
  have hpos : 0 < hit.start := by
    by_contra hzero
    rw [Nat.eq_zero_of_not_pos hzero, List.drop_zero] at hfield
    exact (hfield.append rest).not_startsWithHeader hheader
  refine ⟨⟨hpos, by omega⟩, hit.rest ++ rest, ?_⟩
  rw [hstart, hcontent, charBefore?_append hpos hinside.le, ← List.drop_drop, List.drop_left,
    List.drop_append_of_le_length hinside.le]
  exact hfield.append rest

/-- The columns of a class are read at the places of its fields, one after the other. -/
theorem StartsSpan.forall₂_readAt :
    List.Forall₂ (ReadAt content) (modelColumns content c.line) (fieldPlaces content c.line) := by
  rw [modelColumns, fieldPlaces]
  dsimp only
  rw [List.forall₂_map_left_iff, List.forall₂_map_right_iff, List.forall₂_same]
  intro hit hhit
  exact (h.isField_of_mem hhit).2

theorem StartsSpan.between_of_mem {p : Nat} (hp : p ∈ fieldPlaces content c.line) :
    (classSpan content c.line).1 < p ∧ p < (classSpan content c.line).2 := by
  rw [fieldPlaces] at hp
  dsimp only at hp
  obtain ⟨hit, hhit, rfl⟩ := List.mem_map.1 hp
  have := (h.isField_of_mem hhit).1
  omega

end Places

theorem pairwise_fieldPlaces (content : Text) (n : Int) :
    (fieldPlaces content n).Pairwise (· < ·) := by
  rw [fieldPlaces]
  dsimp only
  rw [List.pairwise_map]
  refine (pairwise_searchAll modelField _).imp fun {a b} hab => ?_
  omega

/-! ## Tables -/

/-- A table is that of a class, with all its columns. -/
theorem of_mem_modelTables {outline : Outline} {table : Table}
    (h : table ∈ modelTables outline content) :
    ∃ c ∈ outline.classes, table.name = c.name ∧ table.line = c.line ∧
      table.columns = modelColumns content c.line := by
  rw [modelTables] at h
  split at h
  · obtain ⟨c, hc, htable⟩ := List.mem_filterMap.1 h
    refine ⟨c, hc, ?_⟩
    split at htable
    · exact absurd htable (by simp)
    · obtain rfl := Option.some.inj htable
      exact ⟨rfl, rfl, rfl⟩
  · exact absurd h List.not_mem_nil

/-- Tables stand in the order of their classes. -/
theorem pairwise_modelTables {outline : Outline} {R : Int → Int → Prop}
    (h : outline.classes.Pairwise fun c c' => R c.line c'.line) :
    (modelTables outline content).Pairwise fun t t' => R t.line t'.line := by
  rw [modelTables]
  split
  · refine h.filterMap _ fun c c' hR t ht t' ht' => ?_
    split at ht
    · exact absurd ht (by simp)
    · split at ht'
      · exact absurd ht' (by simp)
      · obtain rfl := Option.some.inj ht
        obtain rfl := Option.some.inj ht'
        exact hR
  · exact .nil

section Outline

variable {options : OutlineOptions} {root path : Text} {outline : Outline} {broken : Bool}
  (hfeeds : EndsInFeeds content)
  (hextract : Extractor.python.extract options root path content = .ok (outline, broken))
include hfeeds hextract

/-- The spans of the classes of an outline start at their headers. -/
theorem exists_startsSpan {c : ClassDecl} (hc : c ∈ outline.classes) :
    ∃ k, StartsSpan content c k := by
  obtain ⟨k, header, hline, hread, hheader, -⟩ :=
    (wellPlaced_found options (lines content)).classDeclared c (mem_found_of_extract hextract hc)
  exact ⟨k, startsSpan_of_getElem? hfeeds hline hread hheader⟩

/-- The spans of the classes of an outline follow one another. -/
theorem snd_classSpan_le {c c' : ClassDecl} (hc : c ∈ outline.classes) (hc' : c' ∈ outline.classes)
    (hlt : c.line < c'.line) : (classSpan content c.line).2 ≤ (classSpan content c'.line).1 := by
  obtain ⟨k, hk⟩ := exists_startsSpan hfeeds hextract hc
  obtain ⟨k', hk'⟩ := exists_startsSpan hfeeds hextract hc'
  refine hk.snd_le hfeeds hk' ?_
  have := hk.line
  have := hk'.line
  omega

/-- **Every model field belongs to one table.** In a content whose lines end in line feeds, the
spans of the classes of its outline start at their headers and follow one another. Each column of a
table is read at a place of the content that assigns its field, and the class of the table is the
last one whose header stands before that place. No place is read twice, neither in one table nor in
two. -/
theorem modelColumns_attributed :
    (∀ c ∈ outline.classes, StartsWithHeader c.name (content.drop (classSpan content c.line).1) ∧
      (classSpan content c.line).1 < (classSpan content c.line).2) ∧
    (outline.classes.map fun c => classSpan content c.line).Pairwise (fun a b => a.2 ≤ b.1) ∧
    (∀ table ∈ modelTables outline content,
      List.Forall₂ (ReadAt content) table.columns (fieldPlaces content table.line) ∧
      ∃ c ∈ outline.classes, table.name = c.name ∧ table.line = c.line ∧
        ∀ p ∈ fieldPlaces content table.line, (classSpan content c.line).1 < p ∧
          ∀ c' ∈ outline.classes, (classSpan content c'.line).1 ≤ p → c'.line ≤ c.line) ∧
    ((modelTables outline content).flatMap fun table => fieldPlaces content table.line).Pairwise
      (· < ·) := by
  have hordered : outline.classes.Pairwise fun c c' => c.line < c'.line := by
    have := (wellPlaced_found options (lines content)).classesOrdered
    exact (List.pairwise_map.1 this).sublist (classes_sublist_of_extract hextract)
  have hfollow : outline.classes.Pairwise fun c c' =>
      (classSpan content c.line).2 ≤ (classSpan content c'.line).1 :=
    hordered.imp_of_mem fun hc hc' hlt => snd_classSpan_le hfeeds hextract hc hc' hlt
  have hbetween : ∀ table ∈ modelTables outline content, ∀ p ∈ fieldPlaces content table.line,
      (classSpan content table.line).1 < p ∧ p < (classSpan content table.line).2 := by
    intro table htable p hp
    obtain ⟨c, hc, -, hline, -⟩ := of_mem_modelTables htable
    obtain ⟨k, hk⟩ := exists_startsSpan hfeeds hextract hc
    rw [hline] at hp ⊢
    exact hk.between_of_mem hp
  refine ⟨fun c hc => ?_, List.pairwise_map.2 hfollow, fun table htable => ?_, ?_⟩
  · obtain ⟨k, hk⟩ := exists_startsSpan hfeeds hextract hc
    exact ⟨hk.header, hk.fst_lt⟩
  · obtain ⟨c, hc, hname, hline, hcolumns⟩ := of_mem_modelTables htable
    obtain ⟨k, hk⟩ := exists_startsSpan hfeeds hextract hc
    refine ⟨?_, c, hc, hname, hline, fun p hp => ?_⟩
    · rw [hcolumns, hline]
      exact hk.forall₂_readAt
    · obtain ⟨hstart, hstop⟩ := hbetween table htable p hp
      rw [hline] at hstart hstop
      refine ⟨hstart, fun c' hc' hle => ?_⟩
      -- a later class starts behind the span
      by_contra hlt
      have := snd_classSpan_le hfeeds hextract hc hc' (Int.lt_of_not_ge hlt)
      omega
  · refine List.pairwise_flatMap.2 ⟨fun table _ => pairwise_fieldPlaces content table.line, ?_⟩
    have htables : (modelTables outline content).Pairwise fun t t' =>
        (classSpan content t.line).2 ≤ (classSpan content t'.line).1 :=
      pairwise_modelTables (R := fun n n' => (classSpan content n).2 ≤ (classSpan content n').1)
        hfollow
    refine htables.imp_of_mem fun ht ht' hle p hp p' hp' => ?_
    have := (hbetween _ ht p hp).2
    have := (hbetween _ ht' p' hp').1
    omega

end Outline

/-- Two models. A header in a string ends the span of the first one, and the field below it belongs
to no table. -/
def fieldsModel : Text :=
  ("class A(models.Model):\n    u = models.Text()\n    \"\"\"\nclass Z:\n    \"\"\"\n" ++
    "    v = models.Text()\nclass B(models.Model):\n    w = models.ForeignKey('A')\n" ++
    "    x =\\\n  y = models.Text()\n").toList

theorem modelColumns_attributed_fieldsModel :
    ∃ outline, Extractor.python.extract {} "/".toList "/m.py".toList fieldsModel =
        .ok (outline, false) ∧
      EndsInFeeds fieldsModel ∧
      (modelTables outline fieldsModel).map
          (fun table =>
            (table.name, table.columns.map (·.name), fieldPlaces fieldsModel table.line)) =
        [("A".toList, ["u".toList], [23]), ("B".toList, ["w".toList, "y".toList], [115, 155])] ∧
      ((modelTables outline fieldsModel).flatMap fun table =>
        fieldPlaces fieldsModel table.line).Pairwise (· < ·) := by
  have hextract := @extract_python "/m.py".toList (by decide +kernel) {} "/".toList fieldsModel
  have hfeeds : EndsInFeeds fieldsModel := by decide +kernel
  exact ⟨_, hextract, hfeeds, by decide +kernel, (modelColumns_attributed hfeeds hextract).2.2.2⟩

end CodeIndex.Schema
