import CodeIndex.Proofs.Indented.Placement

/-!
# Methods stand in the body of their class

The methods of a class stand below its header and share one indentation, which is not zero; and the
next record at the left margin ends the body, so no method stands below it (`IsNested`). While a
class is open, no record at the left margin stands below its header, and its methods have the
indentation of the body (`IsOpenClass`). `WellNested` collects both; each line keeps it
(`WellNested.advances`), and so does the whole scan (`WellNested.reflTransGen`).
-/

namespace CodeIndex

/-- The lines of the records at the left margin. -/
def Declarations.outerLines (d : Declarations) : List Int :=
  d.functions.map (·.line) ++ d.classes.map (·.line) ++ d.imports.map (·.line)

namespace Indented

open Text

variable {options : OutlineOptions} {line : Text} {src : List Text} {d d' : Declarations}
  {o o' : Option (Option Nat)} {c : ClassDecl}

/-- The methods of the class stand in one body, which is indented and lies between the header of the
class and the next record at the left margin. -/
structure IsNested (src : List Text) (d : Declarations) (c : ClassDecl) : Prop where
  below : ∀ m ∈ c.methods, c.line < m.line
  indented : ∃ b > 0, ∀ m ∈ c.methods, LineIs src m.line fun line =>
    Declares m line ∧ indentation line = b
  ended : ∀ n ∈ d.outerLines, c.line < n → ∀ m ∈ c.methods, m.line < n

/-- The class is open: its header is the last record at the left margin, and its methods have the
indentation of the body, which is fixed before the first of them. -/
structure IsOpenClass (src : List Text) (d : Declarations) (body : Option Nat) (c : ClassDecl) :
    Prop where
  last : ∀ n ∈ d.outerLines, n ≤ c.line
  deeper : ∀ b ∈ body, 0 < b
  indented : ∀ m ∈ c.methods, ∃ b ∈ body, LineIs src m.line fun line =>
    Declares m line ∧ indentation line = b

/-- Every class is nested, and the last one is open if a class is. -/
structure WellNested (src : List Text) (d : Declarations) (o : Option (Option Nat)) : Prop where
  nested : ∀ c ∈ d.classes, IsNested src d c
  opened : ∀ body ∈ o, ∃ cs c, d.classes = cs ++ [c] ∧ IsOpenClass src d body c

/-! ## What a line keeps -/

theorem WellNested.nil : WellNested [] {} none := ⟨by simp, by simp⟩

theorem IsNested.append (h : IsNested src d c) (more : List Text) : IsNested (src ++ more) d c := by
  obtain ⟨b, hb, hindented⟩ := h.indented
  exact { h with indented := ⟨b, hb, fun m hm => (hindented m hm).append more⟩ }

theorem WellNested.append (h : WellNested src d o) (more : List Text) :
    WellNested (src ++ more) d o where
  nested c hc := (h.nested c hc).append more
  opened body hbody := by
    obtain ⟨cs, c, hclasses, hopen⟩ := h.opened body hbody
    refine ⟨cs, c, hclasses, { hopen with indented := ?_ }⟩
    intro m hm
    obtain ⟨b, hb, hline⟩ := hopen.indented m hm
    exact ⟨b, hb, hline.append more⟩

theorem mem_recordLines_of_mem_methods (hc : c ∈ d.classes) {m : FunctionDecl}
    (hm : m ∈ c.methods) : m.line ∈ d.recordLines := by
  simp only [Declarations.recordLines, List.mem_append, List.mem_flatMap]
  exact .inl (.inr ⟨c, hc, List.mem_cons_of_mem _ (List.mem_map_of_mem hm)⟩)

theorem mem_recordLines_of_mem_outerLines {n : Int} (hn : n ∈ d.outerLines) :
    n ∈ d.recordLines := by
  simp only [Declarations.outerLines, Declarations.recordLines, List.mem_append, List.mem_flatMap,
    List.mem_map] at hn ⊢
  rcases hn with (hn | ⟨c, hc, rfl⟩) | hn
  · exact .inl (.inl hn)
  · exact .inl (.inr ⟨c, hc, List.mem_cons_self⟩)
  · exact .inr hn

section Advances

variable (hplaced : WellPlaced src d)
include hplaced

/-- A record at the left margin on a new line stands below all methods. -/
theorem IsNested.of_outerLines (hc : c ∈ d.classes) (h : IsNested src d c)
    (houter : ∀ n ∈ d'.outerLines, n ∈ d.outerLines ∨ n = (src.length + 1 : Nat)) :
    IsNested src d' c := by
  refine { h with ended := ?_ }
  intro n hn hlt m hm
  rcases houter n hn with hn | rfl
  · exact h.ended n hn hlt m hm
  · have := (hplaced.inside _ (mem_recordLines_of_mem_methods hc hm)).2
    omega

/-- A record at the left margin that is no class leaves the open class. -/
theorem WellNested.leave (h : WellNested src d o) (hclasses : d'.classes = d.classes)
    (houter : ∀ n ∈ d'.outerLines, n ∈ d.outerLines ∨ n = (src.length + 1 : Nat)) :
    WellNested src d' none := by
  constructor
  · intro c hc
    rw [hclasses] at hc
    exact (h.nested c hc).of_outerLines hplaced hc houter
  · intro body hbody
    exact absurd hbody (by simp)

/-- A class on a new line is open, and has no methods yet. -/
theorem WellNested.openClass (h : WellNested src d o) {name : Text} :
    WellNested src { d with classes := d.classes ++ [{ name, line := (src.length + 1 : Nat) }] }
      (some none) := by
  have houter : ∀ n ∈ ({ d with classes := d.classes ++
        [{ name, line := (src.length + 1 : Nat) }] } : Declarations).outerLines,
      n ∈ d.outerLines ∨ n = (src.length + 1 : Nat) := by
    intro n hn
    simp only [Declarations.outerLines, List.map_append, List.mem_append, List.map_cons,
      List.map_nil, List.mem_singleton] at hn ⊢
    tauto
  constructor
  · refine List.forall_mem_append.2 ⟨fun c hc => ?_, List.forall_mem_singleton.2 ?_⟩
    · exact (h.nested c hc).of_outerLines hplaced hc houter
    · exact ⟨by simp, ⟨1, Nat.one_pos, by simp⟩, by simp⟩
  · intro body hbody
    obtain rfl := Option.some.inj hbody
    refine ⟨_, _, rfl, ?_, by simp, by simp⟩
    intro n hn
    rcases houter n hn with hn | rfl
    · have := (hplaced.inside _ (mem_recordLines_of_mem_outerLines hn)).2
      show n ≤ ((src.length + 1 : Nat) : Int)
      omega
    · exact Int.le_refl _

/-- A method on a new line that is indented like the body of the open class. -/
theorem WellNested.method {cs : List ClassDecl} {m : FunctionDecl}
    (h : WellNested src d (some (some (indentation line)))) (hd : d.classes = cs ++ [c])
    (hm : Declares m line) (hline : m.line = (src.length + 1 : Nat)) :
    WellNested (src ++ [line]) { d with classes := cs ++ [{ c with methods := c.methods ++ [m] }] }
      (some (some (indentation line))) := by
  have hold := h.append [line]
  obtain ⟨cs', c', hd', hopen⟩ := hold.opened _ rfl
  obtain ⟨rfl, hcc⟩ := List.append_inj' (hd'.symm.trans hd) rfl
  obtain rfl : c' = c := List.singleton_inj.1 hcc
  have hc : c' ∈ d.classes := by simp [hd]
  have houter : ({ d with classes := cs' ++ [{ c' with methods := c'.methods ++ [m] }] } :
      Declarations).outerLines = d.outerLines := by
    simp [Declarations.outerLines, hd]
  -- the new method has the indentation of the others
  have hmethods : ∀ m' ∈ c'.methods ++ [m], LineIs (src ++ [line]) m'.line fun l =>
      Declares m' l ∧ indentation l = indentation line := by
    refine List.forall_mem_append.2 ⟨fun m' hm' => ?_, List.forall_mem_singleton.2 ?_⟩
    · obtain ⟨b, hb, hat⟩ := hopen.indented m' hm'
      obtain rfl := Option.some.inj hb
      exact hat
    · rw [hline]
      exact lineIs_last ⟨hm, rfl⟩
  constructor
  · refine List.forall_mem_append.2 ⟨fun c hcs => ?_, List.forall_mem_singleton.2 ?_⟩
    · have hnested := hold.nested c (by simp [hd, hcs])
      exact ⟨hnested.below, hnested.indented, houter ▸ hnested.ended⟩
    · refine ⟨?_, ⟨indentation line, hopen.deeper _ rfl, hmethods⟩, ?_⟩
      · refine List.forall_mem_append.2 ⟨(hold.nested c' hc).below, List.forall_mem_singleton.2 ?_⟩
        have hheader : c'.line ∈ d.outerLines := by simp [Declarations.outerLines, hd]
        have := (hplaced.inside _ (mem_recordLines_of_mem_outerLines hheader)).2
        show c'.line < m.line
        omega
      · -- no record at the left margin stands below the header
        intro n hn hlt
        rw [houter] at hn
        exact absurd (hopen.last n hn) (Int.not_le.2 hlt)
  · intro body hbody
    obtain rfl := Option.some.inj hbody
    exact ⟨cs', _, rfl, houter ▸ hopen.last, hopen.deeper,
      fun m' hm' => ⟨indentation line, rfl, hmethods m' hm'⟩⟩

/-- **A line of code keeps the methods nested.** -/
theorem WellNested.advances (h : WellNested src d o)
    (hadv : Advances (src.length + 1) line d o d' o') : WellNested (src ++ [line]) d' o' := by
  cases hadv with
  | stay => exact h.append [line]
  | leave => exact (h.leave hplaced rfl fun n hn => .inl hn).append [line]
  | function hl hi =>
    apply WellNested.append
    refine h.leave hplaced (by rfl) fun n hn => ?_
    simp only [Declarations.outerLines, List.map_append, List.mem_append, List.map_cons,
      List.map_nil, List.mem_singleton, DefHeader.heading] at hn ⊢
    tauto
  | «class» hl => exact (h.openClass hplaced).append [line]
  | method ho hd hl =>
    subst ho
    exact h.method hplaced hd ⟨_, hl, rfl, rfl⟩ rfl
  | «import» hl hi =>
    apply WellNested.append
    refine h.leave hplaced (by rfl) fun n hn => ?_
    simp only [Declarations.outerLines, List.map_append, List.mem_append, List.map_cons,
      List.map_nil, List.mem_singleton] at hn ⊢
    tauto

end Advances

/-- The line that fixes the indentation of the body comes before the first method. -/
theorem WellNested.fixBodyIndent {s : ScanState} (h : WellNested src d s.body) :
    WellNested src d (s.fixBodyIndent line).body := by
  rcases s.body_fixBodyIndent line with hsame | ⟨hbody, hpos, hfixed⟩
  · rw [hsame]
    exact h
  · obtain ⟨cs, c, hclasses, hopen⟩ := h.opened none hbody
    refine ⟨h.nested, fun body hb => ⟨cs, c, hclasses, hopen.last, ?_, fun m hm => ?_⟩⟩
    · intro b hb'
      obtain rfl := Option.some.inj (hfixed.symm.trans hb)
      obtain rfl := Option.some.inj hb'
      exact hpos
    · obtain ⟨b, hb', -⟩ := hopen.indented m hm
      exact absurd hb' (by simp)

/-! ## What a scan keeps -/

section Iteration

variable {a b : ScanState × Nat}

theorem Iteration.nested (h : Iteration options src a b)
    (hplaced : WellPlaced (src.take a.2) a.1.headings)
    (ha : WellNested (src.take a.2) a.1.headings a.1.body) :
    WellNested (src.take b.2) b.1.headings b.1.body := by
  obtain ⟨line, more, htake, hadvances⟩ := h.exists_advances
  rw [htake]
  exact (ha.fixBodyIndent.advances hplaced hadvances).append more

theorem WellNested.reflTransGen (h : Relation.ReflTransGen (Iteration options src) a b)
    (hplaced : WellPlaced (src.take a.2) a.1.headings)
    (ha : WellNested (src.take a.2) a.1.headings a.1.body) :
    WellNested (src.take b.2) b.1.headings b.1.body := by
  induction h with
  | refl => exact ha
  | tail hrun hstep ih => exact hstep.nested (WellPlaced.reflTransGen hrun hplaced) ih

end Iteration

/-- Whether a class is nested is a matter of the headings. -/
theorem IsNested.of_headings (h : IsNested src d.headings c.heading) : IsNested src d c := by
  have houter : d.headings.outerLines = d.outerLines := by
    simp [Declarations.outerLines, Declarations.headings, FunctionDecl.heading, ClassDecl.heading,
      ImportDecl.heading, Function.comp_def]
  obtain ⟨hbelow, hindented, hended⟩ := h
  rw [houter] at hended
  simp only [ClassDecl.heading, List.forall_mem_map, FunctionDecl.heading, Declares] at *
  exact ⟨hbelow, hindented, hended⟩

/-- The classes that a whole scan finds are nested. -/
theorem isNested_found (hc : c ∈ (scanLines options {} 1 src).found.classes) :
    IsNested src (scanLines options {} 1 src).found c := by
  have hscan := @reflTransGen_scanLines options {} src 0 (Nat.zero_le _)
  have hnested := WellNested.reflTransGen hscan .nil .nil
  rw [List.take_length] at hnested
  exact (hnested.nested c.heading (List.mem_map_of_mem hc)).of_headings

/-- **Every method stands in the body of its class.** The methods of each class in an outline stand
below its header, share one indentation that is not zero, and stand above every function, class
and import below the header. -/
theorem declarations_nested (options : OutlineOptions) (content : Text) :
    ∀ c ∈ (declarations options content).classes,
      IsNested (lines content) (declarations options content) c := by
  intro c hc
  rw [declarations, ScanState.declarations_eq_found] at hc ⊢
  split at hc
  · next hon =>
    rw [if_pos hon]
    exact isNested_found hc
  · exact absurd hc (by simp)

/-- Two classes with a function between them. The first has a header over three lines, a string that
starts at the left margin, and a function inside its first method. -/
def nestedModel : Text :=
  ("class A(\n    Base\n):\n\"\"\"\ndef no(): pass\n\"\"\"\n    def f(\nself): pass\n" ++
    "        def inner(): pass\n    def g(self): pass\ndef h(): pass\n    def no(self): pass\n" ++
    "class B:\n  def k(self): pass\n").toList

/-- The first class of `nestedModel`. -/
def nestedRecord : ClassDecl :=
  { name := "A".toList, line := 1, isExported := true, description := some "def no(): pass".toList,
    methods := [{ name := "f".toList, params := [], line := 7 },
      { name := "g".toList, params := [], line := 10 }] }

theorem declarations_nested_nestedModel :
    nestedRecord ∈ (declarations {} nestedModel).classes ∧
      (declarations {} nestedModel).outerLines = [11, 1, 13] ∧
      IsNested (lines nestedModel) (declarations {} nestedModel) nestedRecord := by
  have hrecord : nestedRecord ∈ (declarations {} nestedModel).classes := by decide +kernel
  exact ⟨hrecord, by decide +kernel, declarations_nested {} nestedModel nestedRecord hrecord⟩

end Indented

end CodeIndex
