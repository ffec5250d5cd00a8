import CodeIndex.Proofs.Schema.Declarative
import CodeIndex.Proofs.Text.Boundary

/-!
# Where the span of a class starts

An outline numbers lines by all line boundaries, and the span of a class is looked up by a number of
line feeds. Every stray boundary above a class, such as a form feed, therefore moves the start of
its span one line down: the span starts at the header of the class exactly when there is no such
boundary (`classSpan_start_iff`). Two form feeds above a class move it behind the whole class
(`classSpan_start_formFeeds`).
-/

namespace CodeIndex.Schema

open Text Indented

/-- The text starts with the header of a class: `class`, blanks and its name. -/
def StartsWithHeader (name t : Text) : Prop :=
  ∃ s rest, t = "class".toList ++ (s ++ (name ++ rest)) ∧ s ≠ [] ∧ ∀ c ∈ s, isBlank c = true

theorem startsWithHeader_of_prefix {header name t : Text}
    (hheader : classHeader? header = some name) (h : header <+: t) : StartsWithHeader name t := by
  obtain ⟨u, rfl⟩ := h
  obtain ⟨s, s', c, rest, rfl, hne, hs, -⟩ := classHeader?_eq_some_iff.1 hheader
  exact ⟨s, s' ++ c :: (rest ++ u), by simp, hne, hs⟩

theorem fst_classSpan (content : Text) (k : Nat) :
    (classSpan content (k + 1)).1 = lineStart k 0 content := by
  have hk : ((k + 1 : Int) - 1).toNat = k := by omega
  rw [classSpan, lineOffset, hk]

/-- The header of a class stands behind the `k` line boundaries above it, and the span of the class
starts there or further down. -/
structure HeaderAt (content : Text) (record : ClassDecl) (k : Nat) : Prop where
  line : record.line = k + 1
  header : StartsWithHeader record.name (content.drop (lineBegin k content))
  /-- The line feeds above the header and the stray boundaries make up the number of its line. -/
  number : (lineOf content (lineBegin k content) : Int) +
    strayBoundaries (content.take (lineBegin k content)) = record.line
  le_start : lineBegin k content ≤ (classSpan content record.line).1
  start_iff : (classSpan content record.line).1 = lineBegin k content ↔
    strayBoundaries (content.take (lineBegin k content)) = 0

/-- **The span of a class starts at its header exactly when no stray line boundary stands above
it.** For every content and every class in its outline, the header of the class stands behind the
line boundaries above it, and the text at the start of the span goes on with that header whenever
none of them is stray. -/
theorem classSpan_start_iff {options : OutlineOptions} {root path content : Text}
    {outline : Outline} {broken : Bool} {record : ClassDecl}
    (hextract : Extractor.python.extract options root path content = .ok (outline, broken))
    (hrecord : record ∈ outline.classes) :
    ∃ k, HeaderAt content record k ∧
      (strayBoundaries (content.take (lineBegin k content)) = 0 →
        StartsWithHeader record.name (content.drop (classSpan content record.line).1)) := by
  obtain ⟨k, header, hk, hread, hheader, -⟩ :=
    (wellPlaced_found options (lines content)).classDeclared record
      (mem_found_of_extract hextract hrecord)
  have hne : header ≠ [] := by
    rintro rfl
    have hnone : classHeader? [] = none := rfl
    rw [hnone] at hheader
    exact absurd hheader (by simp)
  have hstands := startsWithHeader_of_prefix hheader (prefix_drop_lineBegin hread)
  have hcount := count_add_strayBoundaries hread
  have hiff := lineStart_eq_lineBegin_iff hread hne
  have hstart : (classSpan content record.line).1 = lineStart k 0 content := by
    rw [hk, fst_classSpan]
  refine ⟨k, ⟨hk, hstands, ?_, ?_, hstart ▸ hiff⟩, fun hstray => ?_⟩
  · rw [lineOf, hk]
    omega
  · rw [hstart]
    rcases Nat.eq_zero_or_pos (strayBoundaries (content.take (lineBegin k content))) with h0 | hpos
    · exact (hiff.2 h0).ge
    · exact (lineBegin_lt_lineStart hread hne hpos).le
  · rwa [hstart, hiff.2 hstray]

/-- A class with a primary key, two form feeds above it. -/
def formFeedModel : Text :=
  "\x0c\x0cclass User(Base):\n    id = Column(Integer, primary_key=True)\n".toList

/-- The class on the third line of `formFeedModel`. -/
def formFeedRecord : ClassDecl :=
  { name := "User".toList, line := 3, properties := ["id: Integer".toList], isExported := true }

theorem classSpan_start_formFeedModel :
    formFeedRecord ∈ (declarations {} formFeedModel).classes ∧
      ∃ k, HeaderAt formFeedModel formFeedRecord k ∧
        (strayBoundaries (formFeedModel.take (lineBegin k formFeedModel)) = 0 →
          StartsWithHeader "User".toList
            (formFeedModel.drop (classSpan formFeedModel formFeedRecord.line).1)) := by
  have hrecord : formFeedRecord ∈ (declarations {} formFeedModel).classes := by decide +kernel
  exact ⟨hrecord, classSpan_start_iff
    (@extract_python "/m.py".toList (by decide +kernel) {} "/".toList formFeedModel) hrecord⟩

/-- **Two form feeds move the span of a class behind it.** The content does not go on with the
header of the class there, and the primary key of the class is lost. -/
theorem classSpan_start_formFeeds :
    ∃ outline, Extractor.python.extract {} "/".toList "/m.py".toList formFeedModel =
        .ok (outline, false) ∧
      formFeedRecord ∈ outline.classes ∧
        ¬ StartsWithHeader formFeedRecord.name
          (formFeedModel.drop (lineOffset formFeedModel formFeedRecord.line)) ∧
        ∃ table ∈ declarativeTables outline formFeedModel,
          table.columns =
            [{ name := "id".toList, type := "Integer".toList, primary := false }] := by
  refine ⟨_, @extract_python "/m.py".toList (by decide +kernel) {} "/".toList formFeedModel,
    by decide +kernel, ?_, ?_⟩
  · rintro ⟨s, rest, h, -⟩
    have hend : formFeedModel.drop (lineOffset formFeedModel formFeedRecord.line) = [] := by
      decide +kernel
    exact List.cons_ne_nil _ _ (h.symm.trans hend)
  · decide +kernel

end CodeIndex.Schema
