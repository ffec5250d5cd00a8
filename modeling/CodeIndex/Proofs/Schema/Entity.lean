import CodeIndex.Extract
import CodeIndex.Proofs.Schema.ClassSpan
import CodeIndex.Schema.Entity

/-!
# Where the body of an entity starts

The body of a class is looked for by the name of the class: it starts at the first brace behind the
first place of the content that mentions the class (`StartsBody`), be it its declaration, a comment
or a string. The columns of a table are read from that body (`mem_entityTables_iff`). So the body
starts before the line of the class exactly when a brace stands between the first mention of the
class and that line, and never when nothing mentions the class before it is declared
(`entityBody_start_iff`). A comment with a brace takes the place of the class
(`entityBody_start_comment`).
-/

namespace CodeIndex.Schema

open Text

variable {content name : Text}

/-! ## Mentions and braces -/

/-- Where a class is mentioned stand `class`, blanks and its name. -/
theorem exists_of_classHeader {before : Option Char} {t rest : Text} {a : Unit}
    (h : classHeader name before t = some (a, rest)) :
    ∃ s, t = "class".toList ++ (s ++ (name ++ rest)) ∧ s ≠ [] ∧ ∀ c ∈ s, isBlank c = true := by
  simp only [classHeader, Option.bind_eq_bind, Option.bind_eq_some_iff] at h
  obtain ⟨-, -, t₁, hclass, t₂, hblanks, t₃, hname, -, -, hresult⟩ := h
  obtain rfl := after?_eq_some_iff.1 hclass
  obtain rfl := after?_eq_some_iff.1 hname
  obtain ⟨s, hne, hs, rfl⟩ := exists_of_blanks1? hblanks
  obtain rfl : t₃ = rest := by simpa using hresult
  exact ⟨s, rfl, hne, hs⟩

theorem drop_stop_of_classHeader {pos : Nat} {hit : Hit Unit}
    (h : hitIn? (classHeader name) content pos = some hit) : content.drop hit.stop = hit.rest := by
  refine drop_stop_of_hitIn? h ?_
  obtain ⟨-, hread⟩ := of_hitIn? h
  obtain ⟨s, ht, -⟩ := exists_of_classHeader hread
  rw [ht, ← List.append_assoc, ← List.append_assoc]
  exact List.suffix_append _ _

/-- The first brace from a position on stands at `opening`. -/
structure OpensAt (content : Text) (start opening : Nat) : Prop where
  le : start ≤ opening
  brace : content[opening]? = some '\x7b'
  first : ∀ p, start ≤ p → p < opening → content[p]? ≠ some '\x7b'

theorem opensAt_iff {start opening : Nat} : OpensAt content start opening ↔
    ∃ a b, content.drop start = a ++ '\x7b' :: b ∧ '\x7b' ∉ a ∧ opening = start + a.length := by
  constructor
  · rintro ⟨hle, hbrace, hfirst⟩
    obtain ⟨k, rfl⟩ := Nat.exists_eq_add_of_le hle
    rw [← List.getElem?_drop] at hbrace
    obtain ⟨hk, hat⟩ := List.getElem?_eq_some_iff.1 hbrace
    refine ⟨(content.drop start).take k, (content.drop start).drop (k + 1), ?_, fun hmem => ?_, ?_⟩
    · rw [← hat, ← List.drop_eq_getElem_cons hk, List.take_append_drop]
    · obtain ⟨i, hi, hget⟩ := List.mem_take_iff_getElem.1 hmem
      refine hfirst (start + i) (Nat.le_add_right start i) (by omega) ?_
      rw [← List.getElem?_drop, List.getElem?_eq_getElem (by omega), hget]
    · rw [List.length_take_of_le hk.le]
  · rintro ⟨a, b, hdrop, ha, rfl⟩
    refine ⟨Nat.le_add_right _ _, ?_, fun p hp hlt hat => ha ?_⟩
    · rw [← List.getElem?_drop, hdrop, List.getElem?_append_right le_rfl, Nat.sub_self,
        List.getElem?_cons_zero]
    · obtain ⟨i, rfl⟩ := Nat.exists_eq_add_of_le hp
      rw [← List.getElem?_drop, hdrop, List.getElem?_append_left (by omega)] at hat
      exact List.mem_of_getElem? hat

/-- The body that is read for a class of a name starts at `opening`. -/
def StartsBody (content name : Text) (opening : Nat) : Prop :=
  ∃ mention, IsFirstHit (classHeader name) content 0 mention ∧ OpensAt content mention.stop opening

/-- The text from a brace to the matching one. -/
def bodyAt (content : Text) (opening : Nat) : Text :=
  captureBalanced '\x7b' '\x7d' (content.drop opening)

/-- **The body of a class is read from the first brace behind its first mention.** -/
theorem classBody?_eq_some_iff {body : Text} :
    classBody? content name = some body ↔
      ∃ opening, StartsBody content name opening ∧ body = bodyAt content opening := by
  simp only [classBody?, Option.bind_eq_bind, Option.bind_eq_some_iff]
  constructor
  · rintro ⟨mention, hsearch, ⟨a, b⟩, hcut, hbody⟩
    have hfirst := search?_eq_some_iff.1 hsearch
    have hdrop := drop_stop_of_classHeader hfirst.found
    obtain ⟨hrest, hnot⟩ := cut?_char_eq_some_iff.1 hcut
    rw [hrest] at hdrop
    refine ⟨mention.stop + a.length, ⟨mention, hfirst, opensAt_iff.2 ⟨a, b, hdrop, hnot, rfl⟩⟩, ?_⟩
    rw [bodyAt, ← List.drop_drop, hdrop, List.drop_left]
    exact (Option.some.inj hbody).symm
  · rintro ⟨opening, ⟨mention, hfirst, hopens⟩, rfl⟩
    obtain ⟨a, b, hrest, hnot, rfl⟩ := opensAt_iff.1 hopens
    refine ⟨mention, search?_eq_some_iff.2 hfirst, (a, b), ?_, ?_⟩
    · rw [← drop_stop_of_classHeader hfirst.found]
      exact cut?_char_eq_some_iff.2 ⟨hrest, hnot⟩
    · rw [bodyAt, ← List.drop_drop, hrest, List.drop_left]
      rfl

/-! ## Tables -/

/-- The table of a class whose body starts at `opening`. -/
def entityTable (outline : Outline) (content : Text) (c : ClassDecl) (opening : Nat) : Table where
  name := c.name
  file := outline.relativePath
  line := c.line
  columns := c.properties.filterMap (entityColumn? (bodyAt content opening))

/-- **The tables are those of the classes for which a body with columns is read.** -/
theorem mem_entityTables_iff {outline : Outline} {table : Table} :
    table ∈ entityTables outline content ↔ "@Entity".toList <:+: content ∧
      ∃ c ∈ outline.classes, ∃ opening, StartsBody content c.name opening ∧
        table = entityTable outline content c opening ∧ table.columns ≠ [] := by
  rw [entityTables]
  split
  · next hmarker =>
    simp only [contains_eq_true_iff.1 hmarker, true_and, List.mem_filterMap]
    refine exists_congr fun c => and_congr_right fun _ => ?_
    constructor
    · intro h
      split at h
      · exact absurd h (by simp)
      · split at h
        · exact absurd h (by simp)
        · exact absurd h (by simp)
        · next columns hne hcolumns =>
          obtain ⟨body, hbody, rfl⟩ := Option.map_eq_some_iff.1 hcolumns
          obtain ⟨opening, hstarts, rfl⟩ := classBody?_eq_some_iff.1 hbody
          obtain rfl := Option.some.inj h
          exact ⟨opening, hstarts, rfl, hne⟩
    · rintro ⟨opening, hstarts, rfl, hne⟩
      have hproperties : c.properties ≠ [] := by
        intro hnil
        exact hne (by rw [entityTable, hnil]; rfl)
      rw [if_neg hproperties, classBody?_eq_some_iff.2 ⟨opening, hstarts, rfl⟩, Option.map_some]
      split
      · next hnone => exact absurd hnone (by simp)
      · next hnil => exact absurd (Option.some.inj hnil) hne
      · next columns _ hcolumns => rw [← Option.some.inj hcolumns]; rfl
  · next hmarker =>
    rw [contains_eq_true_iff] at hmarker
    exact ⟨fun h => absurd h List.not_mem_nil, fun h => absurd h.1 hmarker⟩

/-- A class is declared at a position: its header stands there, and the line of the position is that
of its record. -/
structure DeclaredAt (content : Text) (c : ClassDecl) (d : Nat) : Prop where
  header : StartsWithHeader c.name (content.drop d)
  line : c.line = lineOf content d

/-- No brace stands between two positions. -/
def NoBrace (content : Text) (i j : Nat) : Prop := ∀ p, i ≤ p → p < j → content[p]? ≠ some '\x7b'

theorem OpensAt.le_iff {start opening : Nat} (h : OpensAt content start opening) (n : Nat) :
    n ≤ opening ↔ NoBrace content start n := by
  constructor
  · intro hle p hp hlt
    exact h.first p hp (by omega)
  · intro hno
    by_contra hlt
    exact hno opening h.le (by omega) h.brace

/-- **The body of a class starts behind its line exactly when no brace stands between its first
mention and that line.** In an outline whose classes are declared on their lines, a table is read
for each class for which a body with columns is found. Such a body starts at or behind the line of
the class exactly when the content has no brace between the first place that mentions the class and
that line; and it starts behind the declaration whenever nothing before it mentions the class. -/
theorem entityBody_start_iff {outline : Outline} {content : Text}
    (hdeclared : ∀ c ∈ outline.classes, ∃ d, DeclaredAt content c d) :
    (∀ table, table ∈ entityTables outline content ↔ "@Entity".toList <:+: content ∧
      ∃ c ∈ outline.classes, ∃ opening, StartsBody content c.name opening ∧
        table = entityTable outline content c opening ∧ table.columns ≠ []) ∧
      ∀ c ∈ outline.classes, ∃ d, DeclaredAt content c d ∧ lineOffset content c.line ≤ d ∧
        ∀ opening, StartsBody content c.name opening →
          (lineOffset content c.line ≤ opening ↔
            ∀ mention, IsFirstHit (classHeader c.name) content 0 mention →
              NoBrace content mention.stop (lineOffset content c.line)) ∧
          ((∀ p < d, hitIn? (classHeader c.name) content p = none) → d ≤ opening) := by
  refine ⟨fun table => mem_entityTables_iff, fun c hc => ?_⟩
  obtain ⟨d, hd⟩ := hdeclared c hc
  refine ⟨d, hd, hd.line ▸ lineOffset_lineOf_le content d, ?_⟩
  rintro opening ⟨mention, hfirst, hopens⟩
  refine ⟨?_, fun hnone => ?_⟩
  · rw [hopens.le_iff]
    constructor
    · intro hno mention' hfirst'
      obtain rfl : mention' = mention :=
        Option.some.inj ((search?_eq_some_iff.2 hfirst').symm.trans (search?_eq_some_iff.2 hfirst))
      exact hno
    · intro hno
      exact hno mention hfirst
  · have hstart : d ≤ mention.start := by
      by_contra hlt
      have hfound := hfirst.found
      rw [hnone mention.start (by omega)] at hfound
      exact absurd hfound (by simp)
    exact hstart.trans ((start_le_stop_of_hitIn? hfirst.found).trans hopens.le)

/-- An entity, and its name in a comment with braces above it. -/
def commentedEntity : Text :=
  unlines (["// class Post \x7b \x7d", "@Entity()", "export class Post \x7b", "  @Column()",
    "  id: number;", "\x7d"].map String.toList)

/-- The class on the third line of `commentedEntity`. -/
def commentedRecord : ClassDecl :=
  { name := "Post".toList, line := 3, properties := ["id: number".toList], isExported := true }

theorem declaredAt_commentedRecord : DeclaredAt commentedEntity commentedRecord 35 :=
  ⟨⟨[' '], commentedEntity.drop 45, by decide +kernel, by decide, by decide⟩, by decide +kernel⟩

theorem extract_commentedEntity :
    ∃ outline broken, Extractor.script.extract {} "/".toList "/p.ts".toList commentedEntity =
      .ok (outline, broken) ∧ outline.classes = [commentedRecord] :=
  ⟨_, _, rfl, by decide +kernel⟩

theorem entityBody_start_commentedEntity :
    ∃ outline broken, Extractor.script.extract {} "/".toList "/p.ts".toList commentedEntity =
        .ok (outline, broken) ∧
      ∃ c ∈ outline.classes, ∃ d, DeclaredAt commentedEntity c d ∧
        ∀ opening, StartsBody commentedEntity c.name opening →
          (lineOffset commentedEntity c.line ≤ opening ↔
            ∀ mention, IsFirstHit (classHeader c.name) commentedEntity 0 mention →
              NoBrace commentedEntity mention.stop (lineOffset commentedEntity c.line)) := by
  obtain ⟨outline, broken, hextract, hclasses⟩ := extract_commentedEntity
  have hdeclared : ∀ c ∈ outline.classes, ∃ d, DeclaredAt commentedEntity c d := by
    rw [hclasses, List.forall_mem_singleton]
    exact ⟨35, declaredAt_commentedRecord⟩
  have hrecord : commentedRecord ∈ outline.classes := hclasses ▸ List.mem_singleton_self _
  obtain ⟨d, hd, -, hstart⟩ := (entityBody_start_iff hdeclared).2 commentedRecord hrecord
  exact ⟨outline, broken, hextract, commentedRecord, hrecord, d, hd,
    fun opening h => (hstart opening h).1⟩

/-- **A comment takes the place of a class.** The class is declared on the third line, the body that
is read for it starts on the first, and no table comes out. -/
theorem entityBody_start_comment :
    ∃ outline broken, Extractor.script.extract {} "/".toList "/p.ts".toList commentedEntity =
        .ok (outline, broken) ∧
      outline.classes = [commentedRecord] ∧ DeclaredAt commentedEntity commentedRecord 35 ∧
        StartsBody commentedEntity commentedRecord.name 14 ∧
        14 < lineOffset commentedEntity commentedRecord.line ∧
        entityTables outline commentedEntity = [] := by
  have hstop :
      (search? (classHeader commentedRecord.name) commentedEntity).map (·.stop) = some 13 := by
    decide +kernel
  obtain ⟨mention, hsearch, hstop⟩ := Option.map_eq_some_iff.1 hstop
  have hopens : OpensAt commentedEntity 13 14 := by
    refine ⟨by decide, by decide +kernel, fun p hp hlt => ?_⟩
    obtain rfl : p = 13 := by omega
    decide +kernel
  have hstarts : StartsBody commentedEntity commentedRecord.name 14 :=
    ⟨mention, search?_eq_some_iff.1 hsearch, hstop ▸ hopens⟩
  obtain ⟨outline, broken, hextract, hclasses⟩ := extract_commentedEntity
  refine ⟨outline, broken, hextract, hclasses, declaredAt_commentedRecord, hstarts,
    by decide +kernel, ?_⟩
  have hbody : classBody? commentedEntity commentedRecord.name = some "\x7b \x7d".toList := by
    decide +kernel
  have hcolumns : commentedRecord.properties.filterMap (entityColumn? "\x7b \x7d".toList) = [] := by
    decide +kernel
  simp only [entityTables, hclasses, List.filterMap_cons, List.filterMap_nil, hbody,
    Option.map_some, hcolumns, ite_self]

end CodeIndex.Schema
