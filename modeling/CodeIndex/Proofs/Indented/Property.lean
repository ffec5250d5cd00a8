import Mathlib.Data.List.Nodup
import CodeIndex.Proofs.Indented.Opaque
import CodeIndex.Proofs.Indented.Placement

/-!
# Properties of a class along a scan

A step that reads a column attribute adds its property to the open class, or adds nothing
(`opened_step_of_column`). Later steps keep the class and the properties that it has
(`PropertiesKept`), so in the outline the property stands at the place at which it was added
(`RecordsColumn.getElem?_properties`).
-/

namespace CodeIndex.Indented

open Text

variable {options : OutlineOptions} {s t : ScanState} {n : Nat} {line : Text}
  {following : List Text}

/-! ## Properties that are kept -/

theorem ScanState.classes_found_skeleton (s : ScanState) :
    s.skeleton.found.classes = s.found.classes.map ClassDecl.undescribed := by
  obtain ⟨_, current, _⟩ := s
  cases current with
  | none => simp [found, skeleton]
  | some c => simp [found, skeleton, OpenClass.undescribed_close]

theorem ScanState.close_mem_classes_found {c : OpenClass} (h : s.current = some c) :
    c.close ∈ s.found.classes := by
  simp [found, h]

/-- No two classes that a scan finds stand on the same line. -/
theorem eq_of_line_eq {src : List Text} {c c' : ClassDecl}
    (hc : c ∈ (scanLines options {} 1 src).found.classes)
    (hc' : c' ∈ (scanLines options {} 1 src).found.classes) (h : c.line = c'.line) : c = c' := by
  have hordered := (wellPlaced_found options src).classesOrdered
  exact List.inj_on_of_nodup_map (hordered.imp Int.ne_of_lt) hc hc' h

/-- The classes found in `s` are found in `t` as well, with the properties that they have in `s`
first. -/
def PropertiesKept (s t : ScanState) : Prop :=
  ∀ c ∈ s.found.classes, ∃ c' ∈ t.found.classes, c'.line = c.line ∧ c.properties <+: c'.properties

namespace PropertiesKept

theorem of_classes_eq (h : t.found.classes = s.found.classes) : PropertiesKept s t :=
  fun c hc => ⟨c, h ▸ hc, rfl, List.prefix_rfl⟩

theorem refl (s : ScanState) : PropertiesKept s s := of_classes_eq rfl

theorem trans {u : ScanState} (h₁ : PropertiesKept s t) (h₂ : PropertiesKept t u) :
    PropertiesKept s u := by
  intro c hc
  obtain ⟨c₂, hc₂, hline₂, hprefix₂⟩ := h₁ c hc
  obtain ⟨c₃, hc₃, hline₃, hprefix₃⟩ := h₂ c₂ hc₂
  exact ⟨c₃, hc₃, hline₃.trans hline₂, hprefix₂.trans hprefix₃⟩

/-- Descriptions do not matter. -/
theorem of_skeleton (h : t.skeleton.found.classes = s.skeleton.found.classes) :
    PropertiesKept s t := by
  intro c hc
  rw [ScanState.classes_found_skeleton, ScanState.classes_found_skeleton] at h
  have hmem : c.undescribed ∈ t.found.classes.map ClassDecl.undescribed :=
    h ▸ List.mem_map_of_mem hc
  obtain ⟨c', hc', heq⟩ := List.mem_map.1 hmem
  have hline : c'.undescribed.line = c.undescribed.line := congrArg (·.line) heq
  have hproperties : c'.undescribed.properties = c.undescribed.properties :=
    congrArg (·.properties) heq
  exact ⟨c', hc', hline, hproperties ▸ List.prefix_rfl⟩

theorem closeClass (s : ScanState) : PropertiesKept s s.closeClass :=
  of_classes_eq (by rw [ScanState.found_closeClass])

/-- A change of the open class that keeps its line and what it has of properties. -/
theorem of_map {f : OpenClass → OpenClass} (hclasses : t.classes = s.classes)
    (hcurrent : t.current = s.current.map f)
    (h : ∀ c, (f c).header.line = c.header.line ∧ c.properties <:+ (f c).properties) :
    PropertiesKept s t := by
  intro c hc
  rw [ScanState.found, List.mem_append] at hc
  simp only [ScanState.found, hclasses, hcurrent, List.mem_append]
  rcases hc with hc | hc
  · exact ⟨c, .inl hc, rfl, List.prefix_rfl⟩
  · cases hcur : s.current with
    | none => simp [hcur] at hc
    | some c₀ =>
      obtain rfl : c = c₀.close := by simpa [hcur] using hc
      exact ⟨(f c₀).close, .inr (by simp), (h c₀).1, List.reverse_prefix.2 (h c₀).2⟩

theorem useCompleted_attach (s : ScanState) : PropertiesKept s (s.useCompleted .attach) :=
  .of_skeleton (by rw [ScanState.skeleton_useCompleted ScanState.skeleton_attach])

theorem feedTrailing (s : ScanState) (trailing : Text) :
    PropertiesKept s (s.feedTrailing trailing) :=
  .of_skeleton (by rw [ScanState.skeleton_feedTrailing]; rfl)

theorem fixBodyIndent (s : ScanState) (line : Text) : PropertiesKept s (s.fixBodyIndent line) := by
  unfold ScanState.fixBodyIndent
  split
  · refine of_map rfl rfl fun c => ?_
    split <;> exact ⟨rfl, List.suffix_rfl⟩
  · exact refl s

variable {code trailing : Text} {indent : Nat}

theorem stepClass {name : Text} :
    PropertiesKept s (stepClass s n name code trailing indent following).1 := by
  refine .trans (.trans (.closeClass s) fun c hc => ⟨c, ?_, rfl, List.prefix_rfl⟩)
    (.feedTrailing _ trailing)
  simp_all [ScanState.found]

theorem stepMember {c : OpenClass} :
    PropertiesKept s (stepMember s c n code trailing indent following).1 := by
  unfold Indented.stepMember
  split
  · split
    · refine .trans ?_ (.feedTrailing (s.mapCurrent _) trailing)
      exact of_map rfl rfl fun c => ⟨rfl, List.suffix_append _ _⟩
    · refine .trans ?_
        (.feedTrailing { s.takePending.2.mapCurrent _ with latest := some .method } trailing)
      exact of_map rfl rfl fun c => ⟨rfl, List.suffix_rfl⟩
  · exact .feedTrailing s trailing

theorem stepOuter : PropertiesKept s (stepOuter options s n code trailing indent following).1 := by
  unfold Indented.stepOuter
  split
  · refine .trans (.trans ?_ (of_classes_eq rfl)) (.feedTrailing _ trailing)
    exact .trans (of_classes_eq rfl) (.closeClass s.takePending.2)
  · dsimp only
    have hclose := (feedTrailing s trailing).trans (.closeClass _)
    split
    · exact hclose
    · exact hclose.trans (of_classes_eq rfl)
  · exact .feedTrailing s trailing

theorem stepCode : PropertiesKept s (stepCode options s n code trailing indent following).1 := by
  unfold Indented.stepCode
  refine .trans (t := { s with latest := none }) (of_classes_eq rfl) ?_
  generalize ({ s with latest := none } : ScanState) = s
  dsimp only
  split
  · exact stepClass
  · split
    · split
      · exact stepMember
      · exact stepOuter
    · exact stepOuter

/-- **A step keeps the properties of all classes.** -/
theorem step : PropertiesKept s (step options s n line following).1 := by
  unfold Indented.step
  refine .trans (.fixBodyIndent s line) ?_
  generalize s.fixBodyIndent line = s
  dsimp only
  split
  · exact refl s
  · generalize (if s.strings.isOpen then (line, []) else splitHeaderString line) = code
    refine .trans (t := { s with strings := (s.strings.feed code.1).2 }) (of_classes_eq rfl) ?_
    split
    · exact useCompleted_attach _
    · split
      · exact refl _
      · exact stepCode

theorem reflTransGen {src : List Text} {a b : ScanState × Nat}
    (h : Relation.ReflTransGen (Iteration options src) a b) : PropertiesKept a.1 b.1 := by
  induction h with
  | refl => exact refl _
  | tail _ hstep ih =>
    obtain ⟨line, k, -, hstep, -⟩ := hstep
    exact ih.trans (congrArg Prod.fst hstep ▸ step)

end PropertiesKept

/-! ## Properties that a column adds -/

/-- The line of the open class, and its properties so far. -/
def ScanState.opened (s : ScanState) : Option (Int × List Text) :=
  s.current.map fun c => (c.header.line, c.properties)

/-- Descriptions do not matter. -/
theorem opened_congr (h : t.skeleton.current = s.skeleton.current) : t.opened = s.opened := by
  have hopened : ∀ s : ScanState,
      s.opened = s.skeleton.current.map fun c => (c.header.line, c.properties) := by
    intro s
    rw [ScanState.skeleton, Option.map_map]
    rfl
  rw [hopened, hopened, h]

@[simp] theorem opened_feedTrailing (s : ScanState) (trailing : Text) :
    (s.feedTrailing trailing).opened = s.opened :=
  opened_congr (by rw [ScanState.skeleton_feedTrailing])

@[simp] theorem opened_useCompleted_attach (s : ScanState) :
    (s.useCompleted .attach).opened = s.opened :=
  opened_congr (by rw [ScanState.skeleton_useCompleted ScanState.skeleton_attach])

theorem opened_mapCurrent (f : OpenClass → OpenClass) (g : Int × List Text → Int × List Text)
    (h : ∀ c, ((f c).header.line, (f c).properties) = g (c.header.line, c.properties))
    (s : ScanState) : (s.mapCurrent f).opened = s.opened.map g := by
  simp [ScanState.opened, ScanState.mapCurrent, Function.comp_def, h]

@[simp] theorem opened_fixBodyIndent (s : ScanState) (line : Text) :
    (s.fixBodyIndent line).opened = s.opened := by
  unfold ScanState.fixBodyIndent
  split
  · rw [opened_mapCurrent _ id, Option.map_id, id_eq]
    intro c
    split <;> rfl
  · rfl

section Column

variable {name call : Text} (hl : columnAttribute? line = some (name, call))
include hl

theorem indentation_pos_of_columnAttribute? : 0 < indentation line := by
  obtain ⟨s, s', s'', ns, rest, rfl, -, hs₀, hs, hne, hw, -⟩ := exists_of_columnAttribute? hl
  obtain ⟨c, name, rfl⟩ := List.exists_cons_of_ne_nil hne
  rw [List.cons_append, indentation_append hs (isBlank_of_isWord (hw c (by simp)))]
  exact List.length_pos_iff.2 hs₀

/-- No string follows a header on the line. -/
theorem splitHeaderString_of_columnAttribute? : splitHeaderString line = (line, []) := by
  obtain h | ⟨head, tail, -, rfl, hc | hd⟩ := splitHeaderString_cases line
  · exact h
  · obtain ⟨name, hc⟩ := Option.isSome_iff_exists.1 hc
    have := classHeader?_eq_none_of_indentation (indentation_pos_of_columnAttribute? hl)
    rw [classHeader?_append hc] at this
    exact absurd this (by simp)
  · obtain ⟨h, hd⟩ := Option.isSome_iff_exists.1 hd
    have := defHeader?_eq_none_of_columnAttribute? hl
    rw [defHeader?_append hd] at this
    exact absurd this (by simp)

/-- The property of a column attribute. -/
def columnProperty (name call : Text) (following : List Text) : Text :=
  name ++ ": ".toList ++ columnType (collectCall call following).text

theorem opened_stepMember_of_column {c : OpenClass} {indent : Nat} :
    (stepMember s c n line [] indent following).1.opened = s.opened ∨
      (stepMember s c n line [] indent following).1.opened =
        s.opened.map fun o => (o.1, columnProperty name call following :: o.2) := by
  unfold stepMember
  split
  · rw [defHeader?_eq_none_of_columnAttribute? hl]
    refine .inr ?_
    simp only [readAttribute, hl, opened_feedTrailing]
    exact opened_mapCurrent _ _ (fun c => rfl) s
  · exact .inl (opened_feedTrailing s [])

theorem opened_stepCode_of_column :
    (stepCode options s n line [] (indentation line) following).1.opened = s.opened ∨
      (stepCode options s n line [] (indentation line) following).1.opened =
        s.opened.map fun o => (o.1, columnProperty name call following :: o.2) := by
  have hindent := indentation_pos_of_columnAttribute? hl
  obtain ⟨k, hk⟩ := Nat.exists_eq_succ_of_ne_zero (Nat.ne_of_gt hindent)
  have houter : (stepOuter options { s with latest := none } n line [] (indentation line)
      following).1.opened = s.opened := by
    rw [hk, stepOuter]
    exact opened_feedTrailing _ []
  unfold stepCode
  rw [classHeader?_eq_none_of_indentation hindent]
  dsimp only
  split
  · split
    · exact opened_stepMember_of_column hl
    · exact .inl houter
  · exact .inl houter

/-- **A step over a column attribute adds its property to the open class, or nothing.** -/
theorem opened_step_of_column :
    (step options s n line following).1.opened = s.opened ∨
      (step options s n line following).1.opened =
        s.opened.map fun o => (o.1, columnProperty name call following :: o.2) := by
  obtain ⟨hcomment, hne⟩ := isCode_of_columnAttribute? hl
  unfold step
  rw [← opened_fixBodyIndent s line]
  generalize s.fixBodyIndent line = s
  simp only [hcomment, Bool.false_and, Bool.false_eq_true, ↓reduceIte,
    splitHeaderString_of_columnAttribute? hl, ite_self, hne]
  split
  · exact .inl (opened_useCompleted_attach _)
  · exact opened_stepCode_of_column hl

end Column

/-! ## Columns in the outline -/

/-- The iteration from `a` reads a column attribute, and adds a property to the open class `c`. -/
structure RecordsColumn (options : OutlineOptions) (src : List Text) (a : ScanState × Nat)
    (c : OpenClass) (line name call : Text) : Prop where
  read : src[a.2]? = some line
  column : columnAttribute? line = some (name, call)
  current : a.1.current = some c
  added : ∃ c' property,
    (step options a.1 (a.2 + 1) line (src.drop (a.2 + 1))).1.current = some c' ∧
      c'.properties = property :: c.properties

namespace RecordsColumn

variable {src : List Text} {a : ScanState × Nat} {c : OpenClass} {name call : Text}
  (h : RecordsColumn options src a c line name call)
include h

/-- The property is that of the column, and the class is the same. -/
theorem opened_step :
    (step options a.1 (a.2 + 1) line (src.drop (a.2 + 1))).1.opened =
      some (c.header.line, columnProperty name call (src.drop (a.2 + 1)) :: c.properties) := by
  obtain ⟨c', property, hcurrent, hproperties⟩ := h.added
  have ha : a.1.opened = some (c.header.line, c.properties) := by
    rw [ScanState.opened, h.current, Option.map_some]
  obtain hsame | hadded :=
    @opened_step_of_column options a.1 (a.2 + 1) line (src.drop (a.2 + 1)) _ _ h.column
  · -- the class has one more property
    rw [ha, ScanState.opened, hcurrent, Option.map_some, Option.some.injEq, Prod.mk.injEq,
      hproperties] at hsame
    exact absurd (congrArg List.length hsame.2) (by simp)
  · rw [hadded, ha, Option.map_some]

/-- The header of the open class stands above the column. -/
theorem line_le (hrun : Relation.ReflTransGen (Iteration options src) ({}, 0) a) :
    c.header.line ≤ a.2 := by
  have hplaced := (WellPlaced.reflTransGen hrun .nil).of_headings
  have hmem : c.header.line ∈ a.1.found.recordLines := by
    simp only [Declarations.recordLines, List.mem_append, List.mem_flatMap]
    exact .inl (.inr ⟨c.close, ScanState.close_mem_classes_found h.current, List.mem_cons_self⟩)
  have := (hplaced.inside _ hmem).2
  rw [List.length_take] at this
  omega

/-- **In the outline, the property stands at the place at which it was added.** -/
theorem getElem?_properties {record : ClassDecl}
    (hrun : Relation.ReflTransGen (Iteration options src) ({}, 0) a)
    (hrecord : record ∈ (scanLines options {} 1 src).found.classes)
    (hline : record.line = c.header.line) :
    record.properties[c.properties.length]? =
      some (columnProperty name call (src.drop (a.2 + 1))) := by
  obtain ⟨k, hnext⟩ := @exists_iteration options line src a h.read
  -- the open class behind the column
  obtain ⟨c', hc', hopened⟩ := Option.map_eq_some_iff.1 h.opened_step
  obtain ⟨hline', hproperties⟩ := Prod.mk.inj hopened
  -- its record at the end
  have hend := @reflTransGen_scanLines options
    (step options a.1 (a.2 + 1) line (src.drop (a.2 + 1))).1 src _ hnext.lt_and_le.2
  have hscan := scanLines_eq_of_reflTransGen (hrun.tail hnext)
  rw [← hscan] at hend
  obtain ⟨record', hrecord', hline'', hprefix⟩ := PropertiesKept.reflTransGen hend _
    (ScanState.close_mem_classes_found hc')
  obtain rfl : record = record' :=
    eq_of_line_eq hrecord hrecord' (hline.trans (hline''.trans hline').symm)
  have hat : c'.close.properties[c.properties.length]? = some (columnProperty name call
      (src.drop (a.2 + 1))) := by
    rw [OpenClass.close, hproperties]
    simp
  obtain ⟨later, hlater⟩ := hprefix
  rw [← hlater, List.getElem?_append_left (List.getElem?_eq_some_iff.1 hat).1, hat]

end RecordsColumn

end CodeIndex.Indented
