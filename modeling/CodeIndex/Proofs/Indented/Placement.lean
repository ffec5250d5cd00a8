import Mathlib.Data.List.Perm.Basic
import Mathlib.Logic.Relation
import CodeIndex.Proofs.Indented.Headings
import CodeIndex.Proofs.Indented.Lookahead

/-!
# Where the records of an outline stand

Every record of an outline stands on a line of its own, which declares it, and each kind of record
is listed from top to bottom (`WellPlaced`). A heading on a new line at the end keeps records well
placed (`WellPlaced.grows`), so they are well placed along the whole scan, which moves forward with
every step and ends with the last line (`declarations_wellPlaced`).
-/

namespace CodeIndex

/-- The lines of all records: functions, classes with their methods, and imports. -/
def Declarations.recordLines (d : Declarations) : List Int :=
  d.functions.map (·.line) ++ d.classes.flatMap (fun c => c.line :: c.methods.map (·.line)) ++
    d.imports.map (·.line)

namespace Indented

open Text

variable {options : OutlineOptions} {s : ScanState} {n : Nat} {line : Text} {following : List Text}

/-! ## Well-placed records -/

/-- The line with number `n` of a source satisfies `p`. -/
def LineIs (src : List Text) (n : Int) (p : Text → Prop) : Prop :=
  ∃ (i : Nat) (line : Text), n = (i : Int) + 1 ∧ src[i]? = some line ∧ p line

/-- A line is the header of the function, with its name and kind. -/
def Declares (f : FunctionDecl) (line : Text) : Prop :=
  ∃ h, defHeader? line = some h ∧ h.name = f.name ∧ h.isAsync = f.isAsync

/-- The records stand on different lines of the source, in the order of the lists, and each line
declares its record. -/
structure WellPlaced (src : List Text) (d : Declarations) : Prop where
  distinct : d.recordLines.Nodup
  inside : ∀ n ∈ d.recordLines, 1 ≤ n ∧ n ≤ src.length
  functionsOrdered : (d.functions.map (·.line)).Pairwise (· < ·)
  classesOrdered : (d.classes.map (·.line)).Pairwise (· < ·)
  methodsOrdered : ∀ c ∈ d.classes, (c.methods.map (·.line)).Pairwise (· < ·)
  importsOrdered : (d.imports.map (·.line)).Pairwise (· < ·)
  functionDeclared : ∀ f ∈ d.functions, LineIs src f.line fun line =>
    Declares f line ∧ indentation line = 0
  classDeclared : ∀ c ∈ d.classes, LineIs src c.line fun line =>
    classHeader? line = some c.name ∧ indentation line = 0
  methodDeclared : ∀ c ∈ d.classes, ∀ m ∈ c.methods, LineIs src m.line (Declares m)
  importDeclared : ∀ m ∈ d.imports, LineIs src m.line fun line =>
    (importLine? line).isSome = true ∧ indentation line = 0

theorem LineIs.append {src : List Text} {n : Int} {p : Text → Prop} (h : LineIs src n p)
    (more : List Text) : LineIs (src ++ more) n p := by
  obtain ⟨i, line, hn, hi, hp⟩ := h
  refine ⟨i, line, hn, ?_, hp⟩
  rw [List.getElem?_append_left (List.getElem?_eq_some_iff.1 hi).1, hi]

theorem lineIs_last {src : List Text} {p : Text → Prop} (h : p line) :
    LineIs (src ++ [line]) ((src.length + 1 : Nat) : Int) p :=
  ⟨src.length, line, by simp, by simp, h⟩

/-- Whether records are well placed is a matter of their headings. -/
theorem WellPlaced.of_headings {src : List Text} {d : Declarations}
    (h : WellPlaced src d.headings) : WellPlaced src d := by
  have hlines : d.headings.recordLines = d.recordLines := by
    simp [Declarations.recordLines, Declarations.headings, FunctionDecl.heading, ClassDecl.heading,
      ImportDecl.heading, List.flatMap_map, Function.comp_def]
  obtain ⟨hdistinct, hinside, hfunctions, hclasses, hmethods, himports, hfunction, hclass, hmethod,
      himport⟩ := h
  rw [hlines] at hdistinct hinside
  simp only [Declarations.headings, List.map_map, Function.comp_def, FunctionDecl.heading,
    ClassDecl.heading, ImportDecl.heading, List.forall_mem_map, Declares] at *
  exact ⟨hdistinct, hinside, hfunctions, hclasses, hmethods, himports, hfunction, hclass, hmethod,
    himport⟩

theorem WellPlaced.nil : WellPlaced [] {} := by
  refine ⟨.nil, ?_, .nil, .nil, ?_, .nil, ?_, ?_, ?_, ?_⟩ <;> simp [Declarations.recordLines]

/-- Lines that are added at the end move no record. -/
theorem WellPlaced.append {src : List Text} {d : Declarations} (h : WellPlaced src d)
    (more : List Text) : WellPlaced (src ++ more) d where
  __ := h
  inside n hn := ⟨(h.inside n hn).1, by have := (h.inside n hn).2; rw [List.length_append]; omega⟩
  functionDeclared f hf := (h.functionDeclared f hf).append more
  classDeclared c hc := (h.classDeclared c hc).append more
  methodDeclared c hc m hm := (h.methodDeclared c hc m hm).append more
  importDeclared m hm := (h.importDeclared m hm).append more

/-- What is added has the new line. -/
theorem Grows.eq_or_perm {d d' : Declarations} (h : Grows n line d d') :
    d' = d ∨ d'.recordLines.Perm ((n : Int) :: d.recordLines) := by
  cases h with
  | same => exact .inl rfl
  | function hl hi =>
    exact .inr (by simp [Declarations.recordLines, DefHeader.heading, List.perm_middle])
  | «class» hl =>
    refine .inr (List.perm_iff_count.2 fun a => ?_)
    simp [Declarations.recordLines, List.count_cons]
    omega
  | method hd hl =>
    refine .inr (List.perm_iff_count.2 fun a => ?_)
    simp [Declarations.recordLines, hd, DefHeader.heading, List.count_cons]
    omega
  | «import» hl hi =>
    refine .inr (List.perm_iff_count.2 fun a => ?_)
    simp [Declarations.recordLines, List.count_cons]
    omega

section WellPlaced

variable {src : List Text} {d : Declarations} (h : WellPlaced src d)
include h

/-- A record on a new line at the end keeps the lines different. -/
theorem WellPlaced.lines_of_perm {d' : Declarations}
    (hp : d'.recordLines.Perm (((src.length + 1 : Nat) : Int) :: d.recordLines)) (line : Text) :
    d'.recordLines.Nodup ∧ ∀ n ∈ d'.recordLines, 1 ≤ n ∧ n ≤ (src ++ [line]).length := by
  constructor
  · rw [hp.nodup_iff, List.nodup_cons]
    refine ⟨fun hm => ?_, h.distinct⟩
    have := (h.inside _ hm).2
    omega
  · intro n hn
    rw [List.length_append, List.length_singleton]
    rcases List.mem_cons.1 (hp.mem_iff.1 hn) with rfl | hn
    · omega
    · have := h.inside n hn
      omega

theorem WellPlaced.pairwise_append {ls : List Int} (hls : ls.Pairwise (· < ·))
    (hsub : ls ⊆ d.recordLines) :
    (ls ++ [((src.length + 1 : Nat) : Int)]).Pairwise (· < ·) := by
  refine List.pairwise_append.2 ⟨hls, List.pairwise_singleton _ _, fun a ha b hb => ?_⟩
  obtain rfl := List.mem_singleton.1 hb
  have := (h.inside a (hsub ha)).2
  omega

/-- **A heading on a new line at the end keeps the records well placed.** -/
theorem WellPlaced.grows {d' : Declarations} (hg : Grows (src.length + 1) line d d') :
    WellPlaced (src ++ [line]) d' := by
  have hold := h.append [line]
  rcases hg.eq_or_perm with rfl | hperm
  · exact hold
  obtain ⟨hdistinct, hinside⟩ := h.lines_of_perm hperm line
  cases hg with
  | same => exact hold
  | function hl hi =>
    refine { hold with distinct := hdistinct, inside := hinside, functionsOrdered := ?_,
                       functionDeclared := ?_ }
    · rw [List.map_append]
      exact h.pairwise_append h.functionsOrdered fun _ hn => by simp_all [Declarations.recordLines]
    · refine List.forall_mem_append.2 ⟨hold.functionDeclared, List.forall_mem_singleton.2 ?_⟩
      exact lineIs_last ⟨⟨_, hl, rfl, rfl⟩, hi⟩
  | «class» hl =>
    have hi : indentation line = 0 := by
      by_contra hi
      rw [classHeader?_eq_none_of_indentation (Nat.pos_of_ne_zero hi)] at hl
      exact absurd hl (by simp)
    refine { hold with distinct := hdistinct, inside := hinside, classesOrdered := ?_,
                       methodsOrdered := ?_, classDeclared := ?_, methodDeclared := ?_ }
    · rw [List.map_append]
      exact h.pairwise_append h.classesOrdered fun _ hn => by
        simp only [Declarations.recordLines, List.mem_append, List.mem_flatMap]
        obtain ⟨c, hc, rfl⟩ := List.mem_map.1 hn
        exact .inl (.inr ⟨c, hc, List.mem_cons_self⟩)
    · exact List.forall_mem_append.2 ⟨hold.methodsOrdered, List.forall_mem_singleton.2 .nil⟩
    · exact List.forall_mem_append.2 ⟨hold.classDeclared,
        List.forall_mem_singleton.2 (lineIs_last ⟨hl, hi⟩)⟩
    · exact List.forall_mem_append.2 ⟨hold.methodDeclared, List.forall_mem_singleton.2 (by simp)⟩
  | @method cs c _ hd hl =>
    -- the other classes are as they were, and so are the earlier methods of this one
    have hcs : ∀ c' ∈ cs, c' ∈ d.classes := fun c' hc' => hd ▸ List.mem_append_left [c] hc'
    have hc : c ∈ d.classes := hd ▸ List.mem_append_right cs (List.mem_singleton_self c)
    have hordered := hold.classesOrdered
    rw [hd, List.map_append] at hordered
    refine { hold with distinct := hdistinct, inside := hinside, classesOrdered := ?_,
                       methodsOrdered := ?_, classDeclared := ?_, methodDeclared := ?_ }
    · rw [List.map_append]
      exact hordered
    · refine List.forall_mem_append.2 ⟨fun c' hc' => hold.methodsOrdered c' (hcs c' hc'),
        List.forall_mem_singleton.2 ?_⟩
      rw [List.map_append]
      exact h.pairwise_append (h.methodsOrdered c hc) fun _ hn => by
        simp only [Declarations.recordLines, List.mem_append, List.mem_flatMap]
        exact .inl (.inr ⟨c, hc, List.mem_cons_of_mem _ hn⟩)
    · exact List.forall_mem_append.2 ⟨fun c' hc' => hold.classDeclared c' (hcs c' hc'),
        List.forall_mem_singleton.2 (hold.classDeclared c hc)⟩
    · refine List.forall_mem_append.2 ⟨fun c' hc' => hold.methodDeclared c' (hcs c' hc'),
        List.forall_mem_singleton.2 ?_⟩
      exact List.forall_mem_append.2 ⟨hold.methodDeclared c hc,
        List.forall_mem_singleton.2 (lineIs_last ⟨_, hl, rfl, rfl⟩)⟩
  | «import» hl hi =>
    refine { hold with distinct := hdistinct, inside := hinside, importsOrdered := ?_,
                       importDeclared := ?_ }
    · rw [List.map_append]
      exact h.pairwise_append h.importsOrdered fun _ hn => by simp_all [Declarations.recordLines]
    · exact List.forall_mem_append.2 ⟨hold.importDeclared,
        List.forall_mem_singleton.2 (lineIs_last ⟨hl, hi⟩)⟩

end WellPlaced

/-! ## The cursor -/

section Cursor

variable {code trailing : Text} {indent : Nat}

theorem stepMember_le {c : OpenClass} :
    (stepMember s c n code trailing indent following).2 ≤ following.length := by
  unfold stepMember
  split
  · split
    · exact readAttribute_le code following
    · next h _ => exact readSignature_le h.call following
  · exact Nat.zero_le _

theorem stepOuter_le :
    (stepOuter options s n code trailing indent following).2 ≤ following.length := by
  unfold stepOuter
  split
  · next h _ => exact readSignature_le h.call following
  · dsimp only
    split
    · exact Nat.zero_le _
    · next module? names _ => exact readImport_le module? names n following
  · exact Nat.zero_le _

theorem stepCode_le :
    (stepCode options s n code trailing indent following).2 ≤ following.length := by
  unfold stepCode
  dsimp only
  split
  · exact baseLines_le code following
  · split
    · split
      · exact stepMember_le
      · exact stepOuter_le
    · exact stepOuter_le

/-- **A step takes no more lines than there are.** -/
theorem step_le : (step options s n line following).2 ≤ following.length := by
  unfold step
  dsimp only
  generalize (if (s.fixBodyIndent line).strings.isOpen = true then (line, [])
    else splitHeaderString line) = code
  split
  · exact Nat.zero_le _
  · split
    · exact Nat.zero_le _
    · split
      · exact Nat.zero_le _
      · exact stepCode_le

end Cursor

/-- One iteration of the scan over a source: the cursor stands before a line, and moves behind it
and behind the `n` lines that are read with it. -/
def Iteration (options : OutlineOptions) (src : List Text) (a b : ScanState × Nat) : Prop :=
  ∃ line n, src[a.2]? = some line ∧
    step options a.1 (a.2 + 1) line (src.drop (a.2 + 1)) = (b.1, n) ∧ b.2 = a.2 + 1 + n

section Iteration

variable {src : List Text} {a b : ScanState × Nat}

theorem exists_iteration (hline : src[a.2]? = some line) :
    ∃ k, Iteration options src a
      ((step options a.1 (a.2 + 1) line (src.drop (a.2 + 1))).1, a.2 + 1 + k) :=
  ⟨_, line, _, hline, rfl, rfl⟩

theorem Iteration.exists_step (h : Iteration options src a b) (hline : src[a.2]? = some line) :
    ∃ n, step options a.1 (a.2 + 1) line (src.drop (a.2 + 1)) = (b.1, n) ∧ b.2 = a.2 + 1 + n := by
  obtain ⟨line', n, hline', hstep⟩ := h
  obtain rfl : line' = line := Option.some.inj (hline'.symm.trans hline)
  exact ⟨n, hstep⟩

/-- **The cursor moves forward, and not beyond the last line.** -/
theorem Iteration.lt_and_le (h : Iteration options src a b) : a.2 < b.2 ∧ b.2 ≤ src.length := by
  obtain ⟨line, n, hline, hstep, hb⟩ := h
  have hlt : a.2 < src.length := (List.getElem?_eq_some_iff.1 hline).1
  have hle := @step_le options a.1 (a.2 + 1) line (src.drop (a.2 + 1))
  rw [hstep, List.length_drop] at hle
  dsimp only at hle
  omega

/-- The headings and the body advance by the line that is read; the lines read with it hold no
records. -/
theorem Iteration.exists_advances (h : Iteration options src a b) :
    ∃ line more, src.take b.2 = src.take a.2 ++ [line] ++ more ∧
      Advances ((src.take a.2).length + 1) line a.1.headings (a.1.fixBodyIndent line).body
        b.1.headings b.1.body := by
  obtain ⟨line, n, hline, hstep, hb⟩ := h
  have hlt : a.2 < src.length := (List.getElem?_eq_some_iff.1 hline).1
  refine ⟨line, (src.drop (a.2 + 1)).take n, ?_, ?_⟩
  · rw [hb, List.take_add, List.take_add_one, hline]
    rfl
  · have := @step_advances options a.1 (a.2 + 1) line (src.drop (a.2 + 1))
    rwa [hstep, ← List.length_take_of_le (Nat.le_of_lt hlt)] at this

/-- The records stay well placed among the lines that were read. -/
theorem Iteration.wellPlaced (h : Iteration options src a b)
    (ha : WellPlaced (src.take a.2) a.1.headings) :
    WellPlaced (src.take b.2) b.1.headings := by
  obtain ⟨line, more, htake, hadvances⟩ := h.exists_advances
  rw [htake]
  exact (ha.grows hadvances.grows).append more

theorem WellPlaced.reflTransGen (h : Relation.ReflTransGen (Iteration options src) a b)
    (ha : WellPlaced (src.take a.2) a.1.headings) : WellPlaced (src.take b.2) b.1.headings := by
  induction h with
  | refl => exact ha
  | tail _ hstep ih => exact hstep.wellPlaced ih

/-- A scan ends alike from each of the states that it goes through. -/
theorem Iteration.scanLines_eq (h : Iteration options src a b) :
    scanLines options a.1 (a.2 + 1) (src.drop a.2) =
      scanLines options b.1 (b.2 + 1) (src.drop b.2) := by
  obtain ⟨line, k, hline, hstep, hb⟩ := h
  obtain ⟨hlt, rfl⟩ := List.getElem?_eq_some_iff.1 hline
  rw [List.drop_eq_getElem_cons hlt, scanLines, hstep, hb]
  dsimp only
  rw [List.drop_drop, Nat.add_right_comm]

theorem scanLines_eq_of_reflTransGen (h : Relation.ReflTransGen (Iteration options src) a b) :
    scanLines options a.1 (a.2 + 1) (src.drop a.2) =
      scanLines options b.1 (b.2 + 1) (src.drop b.2) := by
  induction h with
  | refl => rfl
  | tail _ hstep ih => rw [ih, hstep.scanLines_eq]

/-- **The scan is the iterations up to the last line.** -/
theorem reflTransGen_scanLines {i : Nat} (hi : i ≤ src.length) :
    Relation.ReflTransGen (Iteration options src) (s, i)
      (scanLines options s (i + 1) (src.drop i), src.length) := by
  -- by induction on the number of lines left
  induction hk : src.length - i using Nat.strong_induction_on generalizing s i with
  | _ k ih =>
    rcases Nat.eq_or_lt_of_le hi with rfl | hlt
    · rw [List.drop_length, scanLines]
    · obtain ⟨k, hnext⟩ :=
        @exists_iteration options _ src (s, i) (List.getElem?_eq_getElem hlt)
      have hcursor := hnext.lt_and_le
      rw [hnext.scanLines_eq]
      exact .head hnext (ih _ (by omega) hcursor.2 rfl)

end Iteration

/-- Records stay well placed when the classes are left out. -/
theorem WellPlaced.withoutClasses {src : List Text} {d : Declarations} (h : WellPlaced src d) :
    WellPlaced src { d with classes := [] } where
  distinct := by
    have := h.distinct
    simp only [Declarations.recordLines, List.flatMap_nil, List.append_nil] at this ⊢
    exact this.sublist ((List.sublist_append_left _ _).append (List.Sublist.refl _))
  inside n hn := by
    refine h.inside n ?_
    simp only [Declarations.recordLines, List.flatMap_nil, List.append_nil, List.mem_append] at hn ⊢
    exact hn.imp .inl id
  functionsOrdered := h.functionsOrdered
  classesOrdered := .nil
  methodsOrdered := by simp
  importsOrdered := h.importsOrdered
  functionDeclared := h.functionDeclared
  classDeclared := by simp
  methodDeclared := by simp
  importDeclared := h.importDeclared

/-- The records that a whole scan finds, listed or not, are well placed. -/
theorem wellPlaced_found (options : OutlineOptions) (src : List Text) :
    WellPlaced src (scanLines options {} 1 src).found := by
  have hscan := @reflTransGen_scanLines options {} src 0 (Nat.zero_le _)
  have hplaced := WellPlaced.reflTransGen hscan .nil
  rw [List.take_length] at hplaced
  exact hplaced.of_headings

/-- **The scan ends, and every record it lists stands where it was declared.** Each iteration moves
the cursor forward and not beyond the last line; the iterations from the first line on end behind
the last one with the outline; and in the outline the records stand on different lines of the
source, from top to bottom, each on the line that declares it. -/
theorem declarations_wellPlaced (options : OutlineOptions) (content : Text) :
    (∀ a b, Iteration options (lines content) a b → a.2 < b.2 ∧ b.2 ≤ (lines content).length) ∧
      (∃ s, Relation.ReflTransGen (Iteration options (lines content)) ({}, 0)
        (s, (lines content).length) ∧ declarations options content = s.declarations options) ∧
      WellPlaced (lines content) (declarations options content) := by
  have hscan := @reflTransGen_scanLines options {} (lines content) 0 (Nat.zero_le _)
  refine ⟨fun a b h => h.lt_and_le, ⟨_, hscan, rfl⟩, ?_⟩
  have hplaced := WellPlaced.reflTransGen hscan .nil
  rw [List.take_length] at hplaced
  have hfound := hplaced.of_headings
  rw [declarations, ScanState.declarations_eq_found]
  split
  · exact hfound
  · exact hfound.withoutClasses

end Indented

end CodeIndex
