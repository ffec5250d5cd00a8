import CodeIndex.Proofs.Extract
import CodeIndex.Proofs.Indented.Property
import CodeIndex.Proofs.Text.Lines
import CodeIndex.Schema.Declarative
import Mathlib.Data.Option.Basic

/-!
# Constraints of declarative columns

The outline tells the name of a column and not where its call stands, so the constraints are read
from the first call that the span of the class assigns to the name (`columnCall_eq_of_firstCall`).
The line of a column attribute is such a place (`columnAssignment_append`). When it is the first
one, the constraints are those of the recorded call (`column_reads_first_call`); a nested class
further up may assign to the same name (`column_reads_nested_call`).
-/

namespace CodeIndex.Schema

open Text Indented

variable {content line name call : Text} {start stop : Nat}

/-- The constraints of the column are those that the arguments of a call state. -/
structure ReadsConstraints (column : Column) (call : Text) : Prop where
  nullable : column.nullable = !isNotNull call
  primary : column.primary = isPrimaryKey call
  foreign : column.foreign = (search? foreignKey call).map (·.value)

/-! ## The place of a column attribute -/

theorem isSpaceOrTab_eq_false {c : Char} (h : isBlank c = false) : isSpaceOrTab c = false := by
  rw [isSpaceOrTab, Bool.or_eq_false_iff, decide_eq_false_iff_not, decide_eq_false_iff_not]
  constructor <;> (rintro rfl; exact absurd h (by decide))

/-- **The line of a column attribute assigns a column call**, if spaces and tabs indent it. -/
theorem columnAssignment_append (hl : columnAttribute? line = some (name, call))
    (hindent : ∀ c ∈ line.takeWhile isBlank, isSpaceOrTab c = true) {before : Option Char}
    (hbefore : startsLine before = true) (u : Text) :
    columnAssignment name before (line ++ u) = some ((), call.tail ++ u) := by
  obtain ⟨s, s', s'', ns, rest, rfl, rfl, hs₀, hs, hne, hw, hs', hs'', hns⟩ :=
    exists_of_columnAttribute? hl
  obtain ⟨c, word, rfl⟩ := List.exists_cons_of_ne_nil hne
  have hc : isBlank c = false := isBlank_of_isWord (hw c (by simp))
  -- the indentation ends at the name
  have hspaces : ∀ d ∈ s, isSpaceOrTab d = true := by
    intro d hd
    refine hindent d ?_
    rw [List.takeWhile_append_of_pos hs]
    exact List.mem_append_left _ hd
  set tail := s' ++ '=' :: (s'' ++ (ns ++ ("Column".toList ++ '(' :: (rest ++ u)))) with htail
  have hspan : (s ++ (c :: word ++ tail)).span isSpaceOrTab = (s, c :: word ++ tail) := by
    rw [List.span_eq_takeWhile_dropWhile, List.takeWhile_append_of_pos hspaces,
      List.dropWhile_append_of_pos hspaces]
    simp [isSpaceOrTab_eq_false hc]
  have hcall : columnCall? ["Column".toList, "mapped_column".toList]
      (ns ++ ("Column".toList ++ '(' :: (rest ++ u))) = some ('(' :: (rest ++ u)) :=
    columnCall?_append hns ["mapped_column".toList] (rest ++ u)
  have htrim : trimLeft (s'' ++ (ns ++ ("Column".toList ++ '(' :: (rest ++ u)))) =
      ns ++ ("Column".toList ++ '(' :: (rest ++ u)) := by
    rw [trimLeft_append hs'']
    exact hns.trimLeft_append (by decide) _
  have hsign : trimLeft tail = '=' :: (s'' ++ (ns ++ ("Column".toList ++ '(' :: (rest ++ u)))) := by
    rw [htail, trimLeft_append hs', trimLeft_cons (by decide)]
  have hline : s ++ (c :: word ++
      (s' ++ '=' :: (s'' ++ (ns ++ ("Column".toList ++ '(' :: rest))))) ++ u =
        s ++ (c :: word ++ tail) := by
    simp [htail]
  rw [hline, columnAssignment, hbefore, hspan]
  obtain ⟨d, s, rfl⟩ := List.exists_cons_of_ne_nil hs₀
  simp only [guard_true, after?_append, hsign, Option.bind_eq_bind, Option.bind_some,
    Option.pure_def]
  change ((columnCall? ["Column".toList, "mapped_column".toList] (trimLeft (s'' ++ _))).bind
    fun call => some ((), call.tail)) = _
  rw [htrim, hcall]
  rfl

theorem call_suffix_of_columnAttribute? (hl : columnAttribute? line = some (name, call)) :
    call <:+ line := by
  obtain ⟨s, s', s'', ns, rest, rfl, rfl, -⟩ := exists_of_columnAttribute? hl
  exact ⟨s ++ (name ++ (s' ++ '=' :: (s'' ++ (ns ++ "Column".toList)))), by simp⟩

theorem call_ne_nil_of_columnAttribute? (hl : columnAttribute? line = some (name, call)) :
    call ≠ [] := by
  obtain ⟨s, s', s'', ns, rest, rfl, rfl, -⟩ := exists_of_columnAttribute? hl
  exact List.cons_ne_nil _ _

/-- Where the call starts that ends the line with index `k`. -/
def callOffset (content : Text) (k : Nat) (line call : Text) : Nat :=
  lineOffset content ((k + 1 : Nat) : Int) + (line.length - call.length)

/-- The call that ends the line with index `k`, from its parenthesis to the matching one, which may
stand on a later line. -/
def recordedCall (content : Text) (k : Nat) (line call : Text) : Text :=
  captureCall (content.drop (callOffset content k line call))

/-- **The recorded call stands where its line has it.** -/
theorem call_prefix_drop {k : Nat} (hfeeds : EndsInFeeds content)
    (hread : (lines content)[k]? = some line) (hl : columnAttribute? line = some (name, call)) :
    call <+: content.drop (callOffset content k line call) := by
  obtain ⟨before, rest, rfl, rfl, hbefore, -⟩ := exists_unlines_of_getElem? hfeeds hread
  obtain ⟨start, rfl⟩ := call_suffix_of_columnAttribute? hl
  rw [callOffset, lineOffset_unlines_append hbefore, ← List.drop_drop, List.drop_left,
    List.length_append, Nat.add_sub_cancel, List.append_assoc, List.drop_left]
  exact List.prefix_append call rest

/-! ## The first call in the span of a class -/

/-- The hit is the first place, in the span of the class on line `n`, that assigns a column call to
the name. -/
def FirstCall (content : Text) (n : Int) (name : Text) (hit : Hit Unit) : Prop :=
  IsFirstHit (columnAssignment name) (content.take (classSpan content n).2)
    (classSpan content n).1 hit

/-- The line with index `k` assigns to the name before any other place in the span of the class on
line `n` does, and spaces and tabs indent it. -/
structure AssignsFirst (content : Text) (n : Int) (k : Nat) (line name : Text) : Prop where
  indented : ∀ c ∈ line.takeWhile isBlank, isSpaceOrTab c = true
  inSpan : lineOffset content ((k + 1 : Nat) : Int) < (classSpan content n).2
  first : ∀ p, (classSpan content n).1 ≤ p → p < lineOffset content ((k + 1 : Nat) : Int) →
    hitIn? (columnAssignment name) (content.take (classSpan content n).2) p = none

section Span

variable {n : Int}

theorem columnCall_eq_of_firstCall {hit : Hit Unit} (h : FirstCall content n name hit) :
    columnCall content name (classSpan content n).1 (classSpan content n).2 =
      captureCall (content.drop (hit.stop - 1)) := by
  rw [columnCall, searchFromPos?_eq_some_iff.2 h]

theorem columnCall_eq_nil (h : ∀ hit, ¬ FirstCall content n name hit) :
    columnCall content name (classSpan content n).1 (classSpan content n).2 = [] := by
  have hnone : searchFromPos? (columnAssignment name) (classSpan content n).1
      (content.take (classSpan content n).2) = none := by
    rw [Option.eq_none_iff_forall_ne_some]
    exact fun hit hhit => h hit (searchFromPos?_eq_some_iff.1 hhit)
  rw [columnCall, hnone]

theorem startsLine_of_topLevelClass {before : Option Char} {t rest : Text} {a : Unit}
    (h : topLevelClass before t = some (a, rest)) : startsLine before = true := by
  by_contra hs
  rw [Bool.not_eq_true] at hs
  simp [topLevelClass, hs] at h

/-- A line that starts in the span of a class lies in it. -/
theorem le_stop_classSpan {before rest : Text} (hline : SingleLine line)
    (h : before.length < (classSpan (before ++ (line ++ rest)) n).2) :
    before.length + line.length ≤ (classSpan (before ++ (line ++ rest)) n).2 := by
  rw [classSpan] at h ⊢
  dsimp only at h ⊢
  split at h
  · next hit hsearch =>
    have hs :=
      startsLine_of_topLevelClass (of_hitIn? (searchFromPos?_eq_some_iff.1 hsearch).found).2
    exact Nat.le_of_lt (lt_of_startsLine hline.not_mem hs h)
  · rw [List.length_append, List.length_append]
    omega

/-- **A column attribute that assigns first is the first place that assigns to its name.** -/
theorem AssignsFirst.exists_firstCall {k : Nat} (h : AssignsFirst content n k line name)
    (hfeeds : EndsInFeeds content) (hread : (lines content)[k]? = some line)
    (hl : columnAttribute? line = some (name, call)) (hn : n ≤ k) :
    ∃ hit, FirstCall content n name hit ∧ hit.stop - 1 = callOffset content k line call := by
  obtain ⟨hindent, hspan, hfirst⟩ := h
  obtain ⟨before, rest, rfl, rfl, hbefore, hline⟩ := exists_unlines_of_getElem? hfeeds hread
  unfold FirstCall
  rw [callOffset]
  rw [lineOffset_unlines_append hbefore] at hspan hfirst ⊢
  have hstop := le_stop_classSpan hline hspan
  have hstart : (classSpan (unlines before ++ (line ++ rest)) n).1 ≤ (unlines before).length := by
    rw [← lineOffset_unlines_append hbefore (line ++ rest)]
    exact lineOffset_mono (by omega) _
  generalize (classSpan (unlines before ++ (line ++ rest)) n).1 = start at *
  generalize (classSpan (unlines before ++ (line ++ rest)) n).2 = stop at *
  -- the span holds the whole line
  obtain ⟨u, hu⟩ : ∃ u, (unlines before ++ (line ++ rest)).take stop =
      unlines before ++ (line ++ u) := by
    refine ⟨rest.take (stop - (unlines before).length - line.length), ?_⟩
    rw [List.take_append, List.take_of_length_le (by omega), List.take_append,
      List.take_of_length_le (by omega)]
  rw [hu] at hfirst ⊢
  have hassign : columnAssignment name
      (charBefore? (unlines before ++ (line ++ u)) (unlines before).length)
      ((unlines before ++ (line ++ u)).drop (unlines before).length) =
        some ((), call.tail ++ u) := by
    rw [List.drop_left]
    exact columnAssignment_append hl hindent (startsLine_charBefore? before _) u
  refine ⟨⟨(), (unlines before).length, _, call.tail ++ u⟩,
    ⟨hstart, ?_, hitIn?_eq_some hassign, hfirst⟩, ?_⟩
  · dsimp only
    rw [List.length_append]
    exact Nat.le_add_right _ _
  · obtain ⟨c, call, rfl⟩ := List.exists_cons_of_ne_nil (call_ne_nil_of_columnAttribute? hl)
    have hlength := (call_suffix_of_columnAttribute? hl).length_le
    simp only [List.drop_left, List.length_append, List.tail_cons, List.length_cons] at hlength ⊢
    omega

end Span

/-! ## The columns of a table -/

/-- A property is cut behind the name of its column. -/
theorem cutProperty_columnProperty (hw : ∀ c ∈ name, isWord c = true) (call : Text)
    (following : List Text) :
    (cutProperty (columnProperty name call following)).1 = name := by
  have hcolon : ':' ∉ name := fun h => absurd (hw ':' h) (by decide)
  have hcut : cut? [':'] (columnProperty name call following) =
      some (name, ' ' :: columnType (collectCall call following).text) := by
    rw [columnProperty, List.append_assoc]
    exact cut?_char hcolon _
  rw [cutProperty, hcut]
  exact trim_word hw

theorem readsConstraints_declarativeColumn (property : Text) :
    ReadsConstraints (declarativeColumn content start stop property)
      (columnCall content (cutProperty property).1 start stop) :=
  ⟨rfl, rfl, rfl⟩

/-- A class with properties is a table, with a column for each of them. -/
theorem exists_table_of_mem {outline : Outline} {record : ClassDecl} {i : Nat} {property : Text}
    (hmarker : containsAny declarativeMarkers content = true) (hrecord : record ∈ outline.classes)
    (hi : record.properties[i]? = some property) :
    ∃ table ∈ declarativeTables outline content,
      table.name = record.name ∧ table.line = record.line ∧
        table.columns[i]? = some (declarativeColumn content (classSpan content record.line).1
          (classSpan content record.line).2 property) := by
  have hne : record.properties ≠ [] := by
    rintro h
    simp [h] at hi
  rw [declarativeTables, if_pos hmarker]
  refine ⟨_, List.mem_map_of_mem (List.mem_filter.2 ⟨hrecord, by simpa using hne⟩), rfl, rfl, ?_⟩
  rw [List.getElem?_map, hi, Option.map_some]

/-- **The constraints of a column are those of the first call that its class assigns to its name.**
The scan of a content whose lines end in line feeds reads a column attribute and adds a property to
a class, which is `record` in the outline. Then the table of the class has a column for the
property. Its constraints are read from the first call that the text from the header of the class to
the next class header at the left margin assigns to the name, and from nothing if there is none. If
the line of the attribute assigns first, this is the recorded call. -/
theorem column_reads_first_call {options : OutlineOptions} {root path : Text} {outline : Outline}
    {broken : Bool} {a : ScanState × Nat} {c : OpenClass} {record : ClassDecl}
    (hfeeds : EndsInFeeds content) (hmarker : containsAny declarativeMarkers content = true)
    (hextract : Extractor.python.extract options root path content = .ok (outline, broken))
    (hrun : Relation.ReflTransGen (Iteration options (lines content)) ({}, 0) a)
    (hcolumn : RecordsColumn options (lines content) a c line name call)
    (hrecord : record ∈ outline.classes) (hline : record.line = c.header.line) :
    ∃ table ∈ declarativeTables outline content,
      table.name = record.name ∧ table.line = record.line ∧
        ∃ column, table.columns[c.properties.length]? = some column ∧ column.name = name ∧
          (∀ hit, FirstCall content record.line name hit →
            ReadsConstraints column (captureCall (content.drop (hit.stop - 1)))) ∧
          ((∀ hit, ¬ FirstCall content record.line name hit) → ReadsConstraints column []) ∧
          (AssignsFirst content record.line a.2 line name →
            ReadsConstraints column (recordedCall content a.2 line call)) ∧
          call <+: content.drop (callOffset content a.2 line call) := by
  have hproperty := hcolumn.getElem?_properties hrun (mem_found_of_extract hextract hrecord) hline
  obtain ⟨table, htable, htableName, htableLine, hat⟩ :=
    exists_table_of_mem hmarker hrecord hproperty
  set property := columnProperty name call ((lines content).drop (a.2 + 1))
  have hname : (cutProperty property).1 = name := by
    obtain ⟨_, _, _, _, _, -, -, -, -, -, hw, -⟩ := exists_of_columnAttribute? hcolumn.column
    exact cutProperty_columnProperty hw call _
  have hreads := @readsConstraints_declarativeColumn content (classSpan content record.line).1
    (classSpan content record.line).2 property
  rw [hname] at hreads
  refine ⟨table, htable, htableName, htableLine, _, hat, hname, fun hit hhit => ?_, fun hnone => ?_,
    fun hfirst => ?_, call_prefix_drop hfeeds hcolumn.read hcolumn.column⟩
  · rwa [columnCall_eq_of_firstCall hhit] at hreads
  · rwa [columnCall_eq_nil hnone] at hreads
  · have hn : record.line ≤ a.2 := hline ▸ hcolumn.line_le hrun
    obtain ⟨hit, hhit, hstop⟩ := hfirst.exists_firstCall hfeeds hcolumn.read hcolumn.column hn
    rwa [columnCall_eq_of_firstCall hhit, hstop] at hreads

/-- A class with two columns; the call of the second takes two lines. -/
def orderModel : List Text :=
  ["class Order(Base):", "    id = Column(Integer)", "    note = db.Column(",
    "        Text, nullable=False)"].map String.toList

/-- The constraints of the second column are read from its call. -/
theorem column_reads_first_call_orderModel :
    ∃ outline, Extractor.python.extract {} "/".toList "/m.py".toList (unlines orderModel) =
        .ok (outline, false) ∧
      ∃ table ∈ declarativeTables outline (unlines orderModel), table.name = "Order".toList ∧
        ∃ column, table.columns[1]? = some column ∧ column.name = "note".toList ∧
          ReadsConstraints column
            (recordedCall (unlines orderModel) 2 "    note = db.Column(".toList "(".toList) := by
  let header : ClassDecl := { name := "Order".toList, line := 1, isExported := true }
  let s₁ : ScanState :=
    { current := some { header, indent := 0 }, latest := some .openClass }
  let c : OpenClass :=
    { header, indent := 0, bodyIndent := some 4, properties := ["id: Integer".toList] }
  let record : ClassDecl :=
    { header with properties := ["id: Integer".toList, "note: Text".toList] }
  have hlines : lines (unlines orderModel) = orderModel := lines_unlines (by decide +kernel)
  have first : Iteration {} orderModel ({}, 0) (s₁, 1) := ⟨_, 0, rfl, by decide +kernel, rfl⟩
  have second : Iteration {} orderModel (s₁, 1) ({ current := some c }, 2) :=
    ⟨_, 0, rfl, by decide +kernel, rfl⟩
  have hcolumn : RecordsColumn {} orderModel ({ current := some c }, 2) c
      "    note = db.Column(".toList "note".toList "(".toList :=
    ⟨rfl, by decide +kernel, rfl, { c with properties := "note: Text".toList :: c.properties }, _,
      by decide +kernel, rfl⟩
  have hrecord : record ∈ (declarations {} (unlines orderModel)).classes := by
    rw [declarations, hlines]
    decide +kernel
  rw [← hlines] at first second hcolumn
  have hextract := @extract_python "/m.py".toList (by decide +kernel) {} "/".toList
    (unlines orderModel)
  obtain ⟨table, htable, hname, -, column, hat, hcolumnName, -, -, hreads, -⟩ :=
    column_reads_first_call (by decide +kernel) (by decide +kernel) hextract
      (.tail (.tail .refl first) second) hcolumn hrecord rfl
  exact ⟨_, hextract, table, htable, hname, column, hat, hcolumnName,
    hreads ⟨by decide +kernel, by decide +kernel, by decide +kernel⟩⟩

/-- A class whose column has the name of a column in a nested class. -/
def nestedModel : List Text :=
  ["class User(Base):", "    class Meta:", "        id = Column(Int, primary_key=True)",
    "    id = Column(String)"].map String.toList

/-- **The call of a nested class is read for the column of the outer one.** The column is no primary
key, and is listed as one. -/
theorem column_reads_nested_call :
    ∃ s c, Relation.ReflTransGen (Iteration {} (lines (unlines nestedModel))) ({}, 0) (s, 3) ∧
      RecordsColumn {} (lines (unlines nestedModel)) (s, 3) c "    id = Column(String)".toList
        "id".toList "(String)".toList ∧
      ∃ outline, Extractor.python.extract {} "/".toList "/m.py".toList (unlines nestedModel) =
          .ok (outline, false) ∧
        ∃ table ∈ declarativeTables outline (unlines nestedModel), table.line = c.header.line ∧
          ∃ column, table.columns[c.properties.length]? = some column ∧
            ¬ ReadsConstraints column (recordedCall (unlines nestedModel) 3
              "    id = Column(String)".toList "(String)".toList) := by
  let header : ClassDecl := { name := "User".toList, line := 1, isExported := true }
  let c : OpenClass := { header, indent := 0, bodyIndent := some 4 }
  have hlines : lines (unlines nestedModel) = nestedModel := lines_unlines (by decide +kernel)
  have first : Iteration {} nestedModel ({}, 0)
      ({ current := some { header, indent := 0 }, latest := some .openClass }, 1) :=
    ⟨_, 0, rfl, by decide +kernel, rfl⟩
  have second : Iteration {} nestedModel
      ({ current := some { header, indent := 0 }, latest := some .openClass }, 1)
      ({ current := some c }, 2) := ⟨_, 0, rfl, by decide +kernel, rfl⟩
  have third : Iteration {} nestedModel ({ current := some c }, 2) ({ current := some c }, 3) :=
    ⟨_, 0, rfl, by decide +kernel, rfl⟩
  have hcolumn : RecordsColumn {} nestedModel ({ current := some c }, 3) c
      "    id = Column(String)".toList "id".toList "(String)".toList :=
    ⟨rfl, by decide +kernel, rfl, { c with properties := ["id: String".toList] }, _,
      by decide +kernel, rfl⟩
  rw [← hlines] at first second third hcolumn
  let column : Column := { name := "id".toList, type := "String".toList, primary := true }
  refine ⟨_, c, .tail (.tail (.tail .refl first) second) third, hcolumn, _,
    @extract_python "/m.py".toList (by decide +kernel) {} "/".toList (unlines nestedModel),
    ⟨"User".toList, "m.py".toList, 1, [column]⟩, ?_, rfl, column, rfl, fun h => ?_⟩
  · decide +kernel
  · exact absurd h.primary (by decide +kernel)

end CodeIndex.Schema
