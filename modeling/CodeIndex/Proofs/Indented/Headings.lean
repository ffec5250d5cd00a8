import CodeIndex.Proofs.Indented.Step

/-!
# Headings

The heading of a record is what the line of its header tells. Docstrings, parameters and attributes
change no heading, and no step but one that opens a class, leaves it or adds to it changes which
class is open and how its body is indented. `Advances` lists what a line of code can do to both, and
a step does what is listed (`step_advances`); in particular it adds at most one heading, taken from
the line it reads (`step_grows`).
-/

namespace CodeIndex

/-! ## Headings -/

/-- The part of a record that the line of its header tells: name, kind and line. -/
def FunctionDecl.heading (f : FunctionDecl) : FunctionDecl :=
  { name := f.name, params := [], line := f.line, isAsync := f.isAsync }

@[inherit_doc FunctionDecl.heading]
def ClassDecl.heading (c : ClassDecl) : ClassDecl :=
  { name := c.name, line := c.line, methods := c.methods.map FunctionDecl.heading }

@[inherit_doc FunctionDecl.heading]
def ImportDecl.heading (d : ImportDecl) : ImportDecl :=
  { source := [], imports := [], line := d.line }

/-- The headings of all records. -/
def Declarations.headings (d : Declarations) : Declarations where
  functions := d.functions.map FunctionDecl.heading
  classes := d.classes.map ClassDecl.heading
  imports := d.imports.map ImportDecl.heading

namespace Indented

open Text

variable {options : OutlineOptions} {s : ScanState} {n : Nat} {line : Text} {following : List Text}

namespace ScanState

/-- The headings that a scan has found so far. -/
def headings (s : ScanState) : Declarations := s.found.headings

@[simp] theorem headings_closeClass (s : ScanState) : s.closeClass.headings = s.headings := by
  rw [headings, found_closeClass, headings]

/-- A change of the open class that keeps its heading keeps all headings. -/
theorem headings_mapCurrent {f : OpenClass → OpenClass}
    (h : ∀ c, (f c).close.heading = c.close.heading) (s : ScanState) :
    (s.mapCurrent f).headings = s.headings := by
  obtain ⟨_, current, _⟩ := s
  cases current with
  | none => rfl
  | some c => simp [headings, Declarations.headings, found, mapCurrent, h]

/-- A description is no part of a heading. -/
@[simp] theorem headings_attach (s : ScanState) (t : Text) :
    (s.attach t).headings = s.headings := by
  have hmap : ∀ fs : List FunctionDecl,
      (mapHead (fun f => { f with description := some t }) fs).map FunctionDecl.heading =
        fs.map FunctionDecl.heading := map_mapHead fun _ => rfl
  cases hl : s.latest with
  | none =>
    rw [attach, hl]
    rfl
  | some l =>
    cases l with
    | function =>
      simp only [attach, hl, headings, found, Declarations.headings, List.map_reverse, hmap]
    | openClass =>
      rw [attach, hl]
      refine headings_mapCurrent (fun c => ?_) s
      rfl
    | method =>
      rw [attach, hl]
      refine headings_mapCurrent (fun c => ?_) s
      simp only [OpenClass.close, ClassDecl.heading, List.map_reverse, hmap]

section View

variable {α : Type} {view : ScanState → α}
  (hstrings : ∀ (s : ScanState) (t : StringTracker), view { s with strings := t } = view s)
include hstrings

theorem view_useCompleted {use : ScanState → Text → ScanState}
    (h : ∀ s t, view (use s t) = view s) (s : ScanState) : view (s.useCompleted use) = view s := by
  unfold useCompleted
  dsimp only
  split
  · rw [h, hstrings]
  · exact hstrings s _

/-- What neither the tracker nor a description changes, a string behind a header does not change. -/
theorem view_feedTrailing (hattach : ∀ s t, view (ScanState.attach s t) = view s) (s : ScanState)
    (t : Text) : view (s.feedTrailing t) = view s := by
  unfold feedTrailing
  dsimp only
  split
  · rfl
  · split
    · rw [view_useCompleted hstrings, hstrings]
      intro s t
      split
      · exact hattach s t
      · rfl
    · exact hstrings s _

end View

@[simp] theorem headings_useCompleted_attach (s : ScanState) :
    (s.useCompleted attach).headings = s.headings :=
  view_useCompleted (fun _ _ => rfl) headings_attach s

@[simp] theorem headings_feedTrailing (s : ScanState) (t : Text) :
    (s.feedTrailing t).headings = s.headings :=
  view_feedTrailing (fun _ _ => rfl) headings_attach s t

@[simp] theorem headings_fixBodyIndent (s : ScanState) (line : Text) :
    (s.fixBodyIndent line).headings = s.headings := by
  unfold fixBodyIndent
  split
  · refine headings_mapCurrent (fun c => ?_) s
    split <;> rfl
  · rfl

/-! ## The body of the open class -/

/-- The indentation of the body of the open class, if a class is open and if it is fixed already. -/
def body (s : ScanState) : Option (Option Nat) := s.current.map (·.bodyIndent)

@[simp] theorem body_closeClass (s : ScanState) : s.closeClass.body = none := by
  rw [body, current_closeClass, Option.map_none]

theorem body_mapCurrent {f : OpenClass → OpenClass} (h : ∀ c, (f c).bodyIndent = c.bodyIndent)
    (s : ScanState) : (s.mapCurrent f).body = s.body := by
  simp only [body, mapCurrent, Option.map_map, Function.comp_def, h]

@[simp] theorem body_attach (s : ScanState) (t : Text) : (s.attach t).body = s.body := by
  unfold attach
  dsimp only
  split
  · rfl
  · rfl
  · refine body_mapCurrent (fun c => ?_) s
    rfl
  · refine body_mapCurrent (fun c => ?_) s
    rfl

@[simp] theorem body_useCompleted_attach (s : ScanState) :
    (s.useCompleted attach).body = s.body :=
  view_useCompleted (fun _ _ => rfl) body_attach s

@[simp] theorem body_feedTrailing (s : ScanState) (t : Text) :
    (s.feedTrailing t).body = s.body :=
  view_feedTrailing (fun _ _ => rfl) body_attach s t

/-- A line that fixes the indentation of a body is indented itself. -/
theorem body_fixBodyIndent (s : ScanState) (line : Text) :
    (s.fixBodyIndent line).body = s.body ∨
      s.body = some none ∧ 0 < indentation line ∧
        (s.fixBodyIndent line).body = some (some (indentation line)) := by
  unfold fixBodyIndent
  split
  · obtain ⟨_, current, _⟩ := s
    cases current with
    | none => exact .inl rfl
    | some c =>
      by_cases hfix : c.bodyIndent = none ∧ indentation line > c.indent
      · refine .inr ⟨congrArg some hfix.1, Nat.zero_lt_of_lt hfix.2, ?_⟩
        simp [body, mapCurrent, hfix]
      · refine .inl ?_
        simp [body, mapCurrent, hfix]
  · exact .inl rfl

end ScanState

/-! ## What a step adds -/

/-- The heading that a function header at line `n` gives. -/
def DefHeader.heading (h : DefHeader) (n : Nat) : FunctionDecl :=
  { name := h.name, params := [], line := n, isAsync := h.isAsync }

/-- Nothing is added, or one heading that the line with number `n` declares. -/
inductive Grows (n : Nat) (line : Text) (d : Declarations) : Declarations → Prop
  | same : Grows n line d d
  | function {h : DefHeader} (hl : defHeader? line = some h) (hi : indentation line = 0) :
      Grows n line d { d with functions := d.functions ++ [h.heading n] }
  | «class» {name : Text} (hl : classHeader? line = some name) :
      Grows n line d { d with classes := d.classes ++ [{ name, line := n }] }
  /-- A method is added to the last class. -/
  | method {cs : List ClassDecl} {c : ClassDecl} {h : DefHeader} (hd : d.classes = cs ++ [c])
      (hl : defHeader? line = some h) :
      Grows n line d { d with classes := cs ++ [{ c with methods := c.methods ++ [h.heading n] }] }
  | «import» (hl : (importLine? line).isSome = true) (hi : indentation line = 0) :
      Grows n line d { d with imports := d.imports ++ [{ source := [], imports := [], line := n }] }

/-- What a line of code can do to the headings and to the body of the open class: it changes
neither, or leaves the class, or adds one heading that the line with number `n` declares. A method
is indented like the body, and any other record leaves the class that was open. -/
inductive Advances (n : Nat) (line : Text) (d : Declarations) (o : Option (Option Nat)) :
    Declarations → Option (Option Nat) → Prop
  | stay : Advances n line d o d o
  | leave : Advances n line d o d none
  | function {h : DefHeader} (hl : defHeader? line = some h) (hi : indentation line = 0) :
      Advances n line d o { d with functions := d.functions ++ [h.heading n] } none
  | «class» {name : Text} (hl : classHeader? line = some name) :
      Advances n line d o { d with classes := d.classes ++ [{ name, line := n }] } (some none)
  | method {cs : List ClassDecl} {c : ClassDecl} {h : DefHeader}
      (ho : o = some (some (indentation line))) (hd : d.classes = cs ++ [c])
      (hl : defHeader? line = some h) :
      Advances n line d o
        { d with classes := cs ++ [{ c with methods := c.methods ++ [h.heading n] }] } o
  | «import» (hl : (importLine? line).isSome = true) (hi : indentation line = 0) :
      Advances n line d o
        { d with imports := d.imports ++ [{ source := [], imports := [], line := n }] } none

theorem Advances.grows {d d' : Declarations} {o o' : Option (Option Nat)}
    (h : Advances n line d o d' o') : Grows n line d d' := by
  cases h with
  | stay => exact .same
  | leave => exact .same
  | function hl hi => exact .function hl hi
  | «class» hl => exact .class hl
  | method ho hd hl => exact .method hd hl
  | «import» hl hi => exact .import hl hi

/-- The code of a line is all of it, or a header that a string follows. -/
def IsCodeOf (line code : Text) : Prop :=
  code = line ∨
    ∃ tail, line = code ++ tail ∧
      ((classHeader? code).isSome = true ∨ (defHeader? code).isSome = true)

namespace IsCodeOf

variable {code : Text} (hcode : IsCodeOf line code)
include hcode

theorem classHeader? {name : Text} (h : classHeader? code = some name) :
    classHeader? line = some name := by
  obtain rfl | ⟨tail, rfl, -⟩ := hcode
  · exact h
  · exact classHeader?_append h tail

theorem defHeader? {h : DefHeader} (hd : defHeader? code = some h) :
    ∃ call, defHeader? line = some { h with call } := by
  obtain rfl | ⟨tail, rfl, -⟩ := hcode
  · exact ⟨h.call, hd⟩
  · exact ⟨h.call ++ tail, defHeader?_append hd tail⟩

/-- Code that is no header is the whole line. -/
theorem eq (hc : Indented.classHeader? code = none) (hd : Indented.defHeader? code = none) :
    code = line := by
  obtain h | ⟨tail, -, h⟩ := hcode
  · exact h
  · simp [hc, hd] at h

/-- Code that a string follows is the same header as the line. -/
theorem classHeader?_eq : Indented.classHeader? code = Indented.classHeader? line := by
  obtain rfl | ⟨tail, rfl, hc | hd⟩ := hcode
  · rfl
  · obtain ⟨name, hc⟩ := Option.isSome_iff_exists.1 hc
    rw [hc, classHeader?_append hc]
  · obtain ⟨h, hd⟩ := Option.isSome_iff_exists.1 hd
    rw [classHeader?_eq_none_of_defHeader? hd,
      classHeader?_eq_none_of_defHeader? (defHeader?_append hd tail)]

theorem exists_defHeader? {h : DefHeader} (hl : Indented.defHeader? line = some h) :
    ∃ call, Indented.defHeader? code = some { h with call } := by
  obtain rfl | ⟨tail, rfl, hc | hd⟩ := hcode
  · exact ⟨h.call, hl⟩
  · obtain ⟨name, hc⟩ := Option.isSome_iff_exists.1 hc
    have := classHeader?_eq_none_of_defHeader? hl
    rw [classHeader?_append hc] at this
    exact absurd this (by simp)
  · obtain ⟨h', hd⟩ := Option.isSome_iff_exists.1 hd
    rw [defHeader?_append hd, Option.some.injEq] at hl
    subst hl
    exact ⟨h'.call, hd⟩

end IsCodeOf

theorem isCodeOf_of_splitHeaderString {code trailing : Text}
    (h : splitHeaderString line = (code, trailing)) : IsCodeOf line code := by
  obtain hall | ⟨head, tail, hcut, hline⟩ := splitHeaderString_cases line
  · exact .inl (Prod.mk.inj (h.symm.trans hall)).1
  · obtain ⟨rfl, -⟩ := Prod.mk.inj (h.symm.trans hcut)
    exact .inr ⟨tail, hline⟩

section Advances

variable {code trailing : Text} {indent : Nat}

/-- A class header adds its class. -/
theorem headings_stepClass (name : Text) :
    (stepClass s n name code trailing indent following).1.headings =
      { s.headings with classes := s.headings.classes ++ [{ name, line := n }] } := by
  rw [← ScanState.headings_closeClass s]
  simp only [stepClass, ScanState.takePending, ScanState.headings_feedTrailing]
  simp [ScanState.headings, ScanState.found, Declarations.headings, OpenClass.close,
    ClassDecl.heading]

theorem stepClass_advances {name : Text} (hl : classHeader? line = some name) :
    Advances n line s.headings s.body
      (stepClass s n name code trailing indent following).1.headings
      (stepClass s n name code trailing indent following).1.body := by
  have hbody : (stepClass s n name code trailing indent following).1.body = some none :=
    ScanState.body_feedTrailing _ trailing
  rw [headings_stepClass, hbody]
  exact .class hl

theorem stepMember_advances (hcode : IsCodeOf line code) {c : OpenClass} (hc : s.current = some c) :
    Advances n line s.headings s.body
      (stepMember s c n code trailing (indentation line) following).1.headings
      (stepMember s c n code trailing (indentation line) following).1.body := by
  unfold stepMember
  split
  · next hindent =>
    split
    · -- an attribute is no part of a heading
      simp only [ScanState.headings_feedTrailing, ScanState.body_feedTrailing]
      rw [ScanState.headings_mapCurrent, ScanState.body_mapCurrent]
      · exact .stay
      · intro c
        rfl
      · intro c
        rfl
    · next h hd =>
      obtain ⟨call, hl⟩ := hcode.defHeader? hd
      have hclasses : s.headings.classes =
          (s.classes.map ClassDecl.heading).reverse ++ [c.close.heading] := by
        simp [ScanState.headings, ScanState.found, Declarations.headings, hc]
      have hbody : s.body = some (some (indentation line)) := by
        rw [ScanState.body, hc, Option.map_some, hindent]
      have hmethod := Advances.method hbody hclasses hl (n := n)
      simp only [ScanState.headings_feedTrailing, ScanState.body_feedTrailing]
      convert hmethod using 1
      · simp [ScanState.headings, ScanState.found, Declarations.headings, ScanState.takePending,
          ScanState.mapCurrent, hc, OpenClass.close, ClassDecl.heading, DefHeader.declare,
          DefHeader.heading, FunctionDecl.heading]
      · refine ScanState.body_mapCurrent (fun c => ?_) s.takePending.2
        rfl
  · rw [ScanState.headings_feedTrailing, ScanState.body_feedTrailing]
    exact .stay

/-- A function header at the left margin adds its function. -/
theorem headings_stepOuter_function {h : DefHeader} (hd : defHeader? code = some h) :
    (stepOuter options s n code trailing 0 following).1.headings =
      { s.headings with functions := s.headings.functions ++ [h.heading n] } := by
  have hsame : ({ s with pending := none } : ScanState).closeClass.headings = s.headings :=
    ScanState.headings_closeClass _
  simp only [stepOuter, hd, ScanState.headings_feedTrailing, ScanState.takePending]
  rw [← hsame]
  simp [ScanState.headings, ScanState.found, Declarations.headings, DefHeader.declare,
    DefHeader.heading, FunctionDecl.heading]

theorem stepOuter_advances (hcode : IsCodeOf line code) (hc : classHeader? code = none) :
    Advances n line s.headings s.body
      (stepOuter options s n code trailing (indentation line) following).1.headings
      (stepOuter options s n code trailing (indentation line) following).1.body := by
  unfold stepOuter
  split
  · next h hi hd =>
    obtain ⟨call, hl⟩ := hcode.defHeader? hd
    have hheadings := @headings_stepOuter_function options s n following code trailing h hd
    simp only [stepOuter, hd] at hheadings
    rw [hheadings, ScanState.body_feedTrailing]
    change Advances n line s.headings s.body _ s.takePending.2.closeClass.body
    rw [ScanState.body_closeClass]
    exact Advances.function (h := { h with call }) hl hi
  · next hi hd =>
    obtain rfl := hcode.eq hc hd
    have hsame : ((s.feedTrailing trailing).closeClass).headings = s.headings := by simp
    have hbody : ((s.feedTrailing trailing).closeClass).body = none := by simp
    dsimp only
    split
    · rw [hsame, hbody]
      exact .leave
    · next module? names himport =>
      have hl : (importLine? code).isSome = true := by
        split at himport
        · rw [himport]
          rfl
        · exact absurd himport (by simp)
      have hadd := Advances.import hl hi (n := n) (d := s.headings) (o := s.body)
      rw [← hsame] at hadd ⊢
      convert hadd using 1
      · simp [ScanState.headings, ScanState.found, Declarations.headings, ImportDecl.heading,
          readImport]
      · exact hbody
  · rw [ScanState.headings_feedTrailing, ScanState.body_feedTrailing]
    exact .stay

theorem stepCode_advances (hcode : IsCodeOf line code) :
    Advances n line s.headings s.body
      (stepCode options s n code trailing (indentation line) following).1.headings
      (stepCode options s n code trailing (indentation line) following).1.body := by
  unfold stepCode
  -- forgetting the latest declaration changes no heading
  change Advances n line ({ s with latest := none } : ScanState).headings
    ({ s with latest := none } : ScanState).body _ _
  generalize ({ s with latest := none } : ScanState) = s
  dsimp only
  split
  · next name hc => exact stepClass_advances (hcode.classHeader? hc)
  · next hc =>
    split
    · next c hcur =>
      split
      · exact stepMember_advances hcode hcur
      · exact stepOuter_advances hcode hc
    · exact stepOuter_advances hcode hc

end Advances

/-- **A step adds at most the heading of the line it reads**, once the line has fixed the
indentation of the body. -/
theorem step_advances :
    Advances n line s.headings (s.fixBodyIndent line).body
      (step options s n line following).1.headings (step options s n line following).1.body := by
  unfold step
  rw [← ScanState.headings_fixBodyIndent s line]
  generalize s.fixBodyIndent line = s
  dsimp only
  split
  · exact .stay
  · -- the code that is fed to the tracker and then read
    obtain ⟨code, trailing, hsplit, hcode⟩ : ∃ code trailing,
        (if s.strings.isOpen then (line, []) else splitHeaderString line) = (code, trailing) ∧
          IsCodeOf line code := by
      split
      · exact ⟨line, [], rfl, .inl rfl⟩
      · exact ⟨_, _, rfl, isCodeOf_of_splitHeaderString rfl⟩
    rw [hsplit]
    dsimp only
    split
    · rw [ScanState.headings_useCompleted_attach, ScanState.body_useCompleted_attach]
      exact .stay
    · split
      · exact .stay
      · exact stepCode_advances (s := { s with strings := (s.strings.feed code).2 }) hcode

theorem step_grows : Grows n line s.headings (step options s n line following).1.headings :=
  step_advances.grows

end Indented

end CodeIndex
