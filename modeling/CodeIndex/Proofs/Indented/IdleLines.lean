import Mathlib.Data.List.Indexes
import CodeIndex.Proofs.Indented.Placement

/-!
# Lines that only move the records below them

A blank line and a comment are idle: outside of strings they leave the state of the scan alone,
whatever declaration is still open (`step_of_isIdle`). The numbers of the lines are nothing but
labels: a scan that starts `k` lines further down finds the same records, and those that it adds to
the known ones have a line that is `k` larger (`scanLines_shiftNew`). The two together say what an
idle line does to an outline (`declarations_cons_idle`).

The records are compared by their places in the lists. Known records stay where they are, since a
scan adds at the end of its lists only; a known class may still get new methods, and then these are
moved and the class itself is not (`ClassDecl.shiftNew`).
-/

namespace CodeIndex

/-! ## Records further down -/

/-- The record `k` lines further down. -/
def FunctionDecl.shift (k : Nat) (f : FunctionDecl) : FunctionDecl := { f with line := f.line + k }

@[inherit_doc FunctionDecl.shift]
def ImportDecl.shift (k : Nat) (d : ImportDecl) : ImportDecl := { d with line := d.line + k }

/-- The element at place `i`, changed unless it is one of the first `known` ones. -/
def changeFrom {α : Type} (known : Nat) (f : α → α) (i : Nat) (a : α) : α :=
  if i < known then a else f a

/-- The class with all of its methods `k` lines further down. Where the class is known, only the
methods that it did not have are moved. -/
def ClassDecl.shiftNew (k : Nat) (known : Option ClassDecl) (c : ClassDecl) : ClassDecl :=
  { c with
    line := if known.isSome then c.line else c.line + k
    methods := c.methods.mapIdx
      (changeFrom (known.elim 0 (·.methods.length)) (FunctionDecl.shift k)) }

/-- The records with those that are not known moved `k` lines down. -/
def Declarations.shiftNew (k : Nat) (d known : Declarations) : Declarations :=
  { d with
    functions := d.functions.mapIdx (changeFrom known.functions.length (FunctionDecl.shift k))
    classes := d.classes.mapIdx fun i c => c.shiftNew k known.classes[i]?
    imports := d.imports.mapIdx (changeFrom known.imports.length (ImportDecl.shift k)) }

/-- All known records are still there, in the same places and with no method lost. -/
structure Declarations.Extends (known d : Declarations) : Prop where
  functions : known.functions.length ≤ d.functions.length
  classes : known.classes.length ≤ d.classes.length
  methods : ∀ (i : Nat) (o c : ClassDecl), known.classes[i]? = some o → d.classes[i]? = some c →
    o.methods.length ≤ c.methods.length
  imports : known.imports.length ≤ d.imports.length

theorem Declarations.extends_headings (d : Declarations) : d.Extends d.headings where
  functions := by simp [headings]
  classes := by simp [headings]
  methods i o c ho hc := by
    obtain rfl : o.heading = c := by simpa [headings, ho] using hc
    simp [ClassDecl.heading]
  imports := by simp [headings]

/-! ## Lists with the last record first -/

section Aged

variable {α : Type} {f : Nat → α → α}

/-- The elements of a list that has the last one first, changed by their places from the end. -/
def mapAge (f : Nat → α → α) : List α → List α
  | [] => []
  | a :: as => f as.length a :: mapAge f as

theorem reverse_mapAge (l : List α) : (mapAge f l).reverse = l.reverse.mapIdx f := by
  induction l with
  | nil => rfl
  | cons a l ih => rw [mapAge, List.reverse_cons, ih, List.reverse_cons, List.mapIdx_concat,
      List.length_reverse]

/-- A change that is none at every place leaves the list alone. -/
theorem mapIdx_eq_self {l : List α} (h : ∀ i a, l[i]? = some a → f i a = a) : l.mapIdx f = l := by
  refine List.ext_getElem? fun i => ?_
  rw [List.getElem?_mapIdx]
  cases hi : l[i]? with
  | none => rfl
  | some a => exact congrArg some (h i a hi)

theorem mapAge_eq_self {l : List α} (h : ∀ i a, l.reverse[i]? = some a → f i a = a) :
    mapAge f l = l := by
  apply List.reverse_injective
  rw [reverse_mapAge, mapIdx_eq_self h]

/-- With all elements known, none is changed. -/
theorem changeFrom_of_getElem? {l : List α} {i : Nat} {a : α} (h : l[i]? = some a) (g : α → α) :
    changeFrom l.length g i a = a :=
  if_pos (List.getElem?_eq_some_iff.1 h).1

theorem ClassDecl.shiftNew_self {k : Nat} (c : ClassDecl) : c.shiftNew k (some c) = c := by
  have hmethods :
      c.methods.mapIdx (changeFrom c.methods.length (FunctionDecl.shift k)) = c.methods :=
    mapIdx_eq_self fun i m hi => changeFrom_of_getElem? hi _
  simp [shiftNew, hmethods]

theorem mapAge_changeFrom_length (g : α → α) (l : List α) :
    mapAge (changeFrom l.length g) l = l := by
  refine mapAge_eq_self fun i a hi => ?_
  rw [← List.length_reverse]
  exact changeFrom_of_getElem? hi g

/-- A new element in front is changed, and so are the new ones among the others. -/
theorem mapAge_changeFrom_cons {known : Nat} {g : α → α} {l : List α} (h : known ≤ l.length)
    (a : α) : mapAge (changeFrom known g) (a :: l) = g a :: mapAge (changeFrom known g) l := by
  rw [mapAge, changeFrom, if_neg (by omega)]

end Aged

namespace Indented

open Text

variable {options : OutlineOptions} {s : ScanState} {n k : Nat} {line : Text}
  {following : List Text} {known : Declarations}

/-- The first element may be changed before its place is looked at. -/
theorem mapHead_mapAge {α : Type} {f : Nat → α → α} {g : α → α} (h : ∀ i a, g (f i a) = f i (g a))
    (l : List α) : mapHead g (mapAge f l) = mapAge f (mapHead g l) := by
  cases l with
  | nil => rfl
  | cons a l => rw [mapAge, mapHead, h, mapHead, mapAge]

/-- The known records stay known when a record is added. -/
theorem Grows.extends {d d' : Declarations} (h : Grows n line d d') (hd : known.Extends d) :
    known.Extends d' := by
  obtain ⟨hfunctions, hclasses, hmethods, himports⟩ := hd
  cases h with
  | same => exact ⟨hfunctions, hclasses, hmethods, himports⟩
  | function hl hi =>
    refine ⟨?_, hclasses, hmethods, himports⟩
    rw [List.length_append]
    omega
  | «class» hl =>
    refine ⟨hfunctions, ?_, ?_, himports⟩
    · rw [List.length_append]
      omega
    · intro i o c ho hc
      have hi : i < d.classes.length := by
        have := (List.getElem?_eq_some_iff.1 ho).1
        omega
      rw [List.getElem?_append_left hi] at hc
      exact hmethods i o c ho hc
  | @method cs c h hlast hl =>
    rw [hlast] at hclasses hmethods
    refine ⟨hfunctions, ?_, ?_, himports⟩
    · simpa using hclasses
    · intro i o c' ho hc
      rcases Nat.lt_or_ge i cs.length with hi | hi
      · rw [List.getElem?_append_left hi] at hc
        exact hmethods i o c' ho (by rw [List.getElem?_append_left hi, hc])
      · rw [List.getElem?_append_right hi, List.getElem?_singleton] at hc
        split at hc
        · next hlast =>
          obtain rfl := Option.some.inj hc
          have hkept := hmethods i o c ho (by
            rw [List.getElem?_append_right hi, List.getElem?_singleton, if_pos hlast])
          rw [List.length_append]
          omega
        · exact absurd hc (by simp)
  | «import» hl hi =>
    refine ⟨hfunctions, hclasses, hmethods, ?_⟩
    rw [List.length_append]
    omega

/-! ## States further down -/

/-- The open class with the same change as `ClassDecl.shiftNew`. -/
def OpenClass.shiftNew (k : Nat) (known : Option ClassDecl) (c : OpenClass) : OpenClass :=
  { c with
    header := { c.header with line := if known.isSome then c.header.line else c.header.line + k }
    methods := mapAge (changeFrom (known.elim 0 (·.methods.length)) (FunctionDecl.shift k))
      c.methods }

theorem OpenClass.close_shiftNew (known : Option ClassDecl) (c : OpenClass) :
    (c.shiftNew k known).close = c.close.shiftNew k known := by
  simp only [close, shiftNew, ClassDecl.shiftNew, reverse_mapAge]

/-- A class whose methods are all known is left alone. -/
theorem OpenClass.shiftNew_close (c : OpenClass) : c.shiftNew k (some c.close) = c := by
  have hlength : c.close.methods.length = c.methods.length := by simp [close]
  simp [shiftNew, hlength, mapAge_changeFrom_length]

/-- The change of a description and that of a line do not meet. -/
theorem changeFrom_shift_describe (known : Nat) (description : Text) (i : Nat) (f : FunctionDecl) :
    { changeFrom known (FunctionDecl.shift k) i f with description := some description } =
      changeFrom known (FunctionDecl.shift k) i { f with description := some description } := by
  unfold changeFrom
  split <;> rfl

namespace ScanState

/-- The state with the records that are not known `k` lines further down. -/
def shiftNew (k : Nat) (known : Declarations) (s : ScanState) : ScanState :=
  { s with
    current := s.current.map (OpenClass.shiftNew k known.classes[s.classes.length]?)
    functions := mapAge (changeFrom known.functions.length (FunctionDecl.shift k)) s.functions
    classes := mapAge (fun i c => c.shiftNew k known.classes[i]?) s.classes
    imports := mapAge (changeFrom known.imports.length (ImportDecl.shift k)) s.imports }

theorem found_shiftNew (s : ScanState) :
    (s.shiftNew k known).found = s.found.shiftNew k known := by
  obtain ⟨_, current, _⟩ := s
  cases current with
  | none => simp [found, shiftNew, Declarations.shiftNew, reverse_mapAge]
  | some c =>
    simp [found, shiftNew, Declarations.shiftNew, reverse_mapAge, OpenClass.close_shiftNew,
      List.mapIdx_append]

/-- With everything known, nothing is moved. -/
theorem shiftNew_found (s : ScanState) : s.shiftNew k s.found = s := by
  have hclasses : mapAge (fun i c => c.shiftNew k s.found.classes[i]?) s.classes = s.classes := by
    refine mapAge_eq_self fun i c hi => ?_
    have hfound : s.found.classes[i]? = some c := by
      rw [found, List.getElem?_append_left (List.getElem?_eq_some_iff.1 hi).1, hi]
    rw [hfound]
    exact c.shiftNew_self
  have hcurrent :
      s.current.map (OpenClass.shiftNew k s.found.classes[s.classes.length]?) = s.current := by
    cases hc : s.current with
    | none => rfl
    | some c =>
      have hfound : s.found.classes[s.classes.length]? = some c.close := by simp [found, hc]
      rw [hfound]
      exact congrArg some c.shiftNew_close
  obtain ⟨_, _, _, _, functions, classes, imports⟩ := s
  simp only [shiftNew] at hclasses hcurrent ⊢
  rw [hcurrent, hclasses]
  simp only [found, List.length_reverse, mapAge_changeFrom_length]

theorem closeClass_shiftNew (s : ScanState) :
    (s.shiftNew k known).closeClass = s.closeClass.shiftNew k known := by
  obtain ⟨_, current, _⟩ := s
  cases current with
  | none => rfl
  | some c => simp only [closeClass, shiftNew, Option.map_some, OpenClass.close_shiftNew, mapAge,
      Option.map_none]

/-- A change of the open class that does the same to the class further down. -/
theorem mapCurrent_shiftNew {f g : OpenClass → OpenClass}
    (h : ∀ c, s.current = some c → g (c.shiftNew k known.classes[s.classes.length]?) =
      (f c).shiftNew k known.classes[s.classes.length]?) :
    (s.shiftNew k known).mapCurrent g = (s.mapCurrent f).shiftNew k known := by
  obtain ⟨_, current, _⟩ := s
  cases current with
  | none => rfl
  | some c => simp only [mapCurrent, shiftNew, Option.map_some, h c rfl]

theorem attach_shiftNew (s : ScanState) (t : Text) :
    (s.shiftNew k known).attach t = (s.attach t).shiftNew k known := by
  have hdescribe (known : Nat) (fs : List FunctionDecl) :
      mapHead (fun f => { f with description := some t })
          (mapAge (changeFrom known (FunctionDecl.shift k)) fs) =
        mapAge (changeFrom known (FunctionDecl.shift k))
          (mapHead (fun f => { f with description := some t }) fs) :=
    mapHead_mapAge (changeFrom_shift_describe known t) fs
  obtain ⟨_, current, _, latest, _⟩ := s
  cases latest with
  | none => rfl
  | some l =>
    cases l with
    | function => simp only [attach, shiftNew, hdescribe]
    | openClass => cases current <;> rfl
    | method =>
      cases current with
      | none => rfl
      | some c =>
        simp only [attach, mapCurrent, shiftNew, Option.map_some, OpenClass.shiftNew, hdescribe]

theorem passesStrings_shiftNew (k : Nat) (known : Declarations) :
    PassesStrings (·.shiftNew k known) where
  strings _ := rfl
  latest _ := rfl
  setStrings _ _ := rfl
  attach := attach_shiftNew

theorem feedTrailing_shiftNew (s : ScanState) (t : Text) :
    (s.shiftNew k known).feedTrailing t = (s.feedTrailing t).shiftNew k known :=
  (passesStrings_shiftNew k known).feedTrailing s t

theorem fixBodyIndent_shiftNew (s : ScanState) (line : Text) :
    (s.shiftNew k known).fixBodyIndent line = (s.fixBodyIndent line).shiftNew k known := by
  have hstrings : (s.shiftNew k known).strings = s.strings := rfl
  unfold fixBodyIndent
  rw [hstrings]
  split
  · refine mapCurrent_shiftNew fun c _ => ?_
    have hbody : (c.shiftNew k known.classes[s.classes.length]?).bodyIndent = c.bodyIndent := rfl
    have hindent : (c.shiftNew k known.classes[s.classes.length]?).indent = c.indent := rfl
    rw [hbody, hindent]
    split <;> rfl
  · rfl

end ScanState

open ScanState

/-! ## Steps further down -/

/-- A header further down declares the same function there. -/
theorem DefHeader.declare_add (h : DefHeader) (sig : Signature) (isExported : Bool)
    (description : Option Text) :
    h.declare sig (n + k) isExported description =
      (h.declare sig n isExported description).shift k := by
  simp only [declare, FunctionDecl.shift, Int.natCast_add]

theorem readImport_add (module? : Option Text) (names : Text) :
    readImport module? names (n + k) following =
      (readImport module? names n following).map (ImportDecl.shift k) id := by
  simp only [readImport, ImportDecl.shift, Prod.map, Int.natCast_add, id]

section Steps

variable {code trailing : Text} {indent : Nat} (hknown : known.Extends s.headings)
include hknown

/-- A class that is opened now is not known. -/
theorem getElem?_known_closeClass : known.classes[s.closeClass.classes.length]? = none := by
  have hle := hknown.classes
  rw [← headings_closeClass] at hle
  rw [List.getElem?_eq_none_iff]
  simpa [headings, Declarations.headings, found] using hle

/-- A function that is read now is not known, nor is an import. -/
theorem length_known_le : known.functions.length ≤ s.functions.length ∧
    known.imports.length ≤ s.imports.length := by
  have hfunctions := hknown.functions
  have himports := hknown.imports
  simp only [headings, Declarations.headings, found, List.length_map, List.length_reverse]
    at hfunctions himports
  exact ⟨hfunctions, himports⟩

/-- A method that is read now is not known. -/
theorem length_known_methods_le {c : OpenClass} (hc : s.current = some c) :
    known.classes[s.classes.length]?.elim 0 (·.methods.length) ≤ c.methods.length := by
  have hlast : s.headings.classes[s.classes.length]? = some c.close.heading := by
    simp [headings, Declarations.headings, found, hc]
  cases ho : known.classes[s.classes.length]? with
  | none => exact Nat.zero_le _
  | some o =>
    have hle := hknown.methods _ o _ ho hlast
    simpa [ClassDecl.heading, OpenClass.close] using hle

theorem stepClass_shiftNew (name : Text) :
    stepClass (s.shiftNew k known) (n + k) name code trailing indent following =
      (stepClass s n name code trailing indent following).map (·.shiftNew k known) id := by
  have hnew := getElem?_known_closeClass hknown
  unfold stepClass
  rw [closeClass_shiftNew]
  dsimp only [takePending, Prod.map]
  rw [← feedTrailing_shiftNew]
  refine Prod.ext (congrArg (feedTrailing · trailing) ?_) rfl
  simp only [shiftNew, Option.map_some, hnew, OpenClass.shiftNew, Option.isSome_none,
    Bool.false_eq_true, ↓reduceIte, mapAge, Int.natCast_add]

theorem stepMember_shiftNew {c : OpenClass} (hc : s.current = some c) :
    stepMember (s.shiftNew k known) (c.shiftNew k known.classes[s.classes.length]?) (n + k) code
        trailing indent following =
      (stepMember s c n code trailing indent following).map (·.shiftNew k known) id := by
  have hbody : (c.shiftNew k known.classes[s.classes.length]?).bodyIndent = c.bodyIndent := rfl
  have hmethods := length_known_methods_le hknown hc
  unfold stepMember
  rw [hbody]
  split
  · split
    · dsimp only [Prod.map]
      rw [← feedTrailing_shiftNew]
      refine Prod.ext (congrArg (feedTrailing · trailing) ?_) rfl
      exact mapCurrent_shiftNew fun _ _ => rfl
    · next h _ =>
      dsimp only [Prod.map, takePending]
      rw [← feedTrailing_shiftNew]
      refine Prod.ext (congrArg (feedTrailing · trailing) ?_) rfl
      simp only [mapCurrent, shiftNew, hc, Option.map_some, OpenClass.shiftNew,
        DefHeader.declare_add, mapAge_changeFrom_cons hmethods]
  · exact Prod.ext (feedTrailing_shiftNew s trailing) rfl

theorem stepOuter_shiftNew :
    stepOuter options (s.shiftNew k known) (n + k) code trailing indent following =
      (stepOuter options s n code trailing indent following).map (·.shiftNew k known) id := by
  unfold stepOuter
  split
  · next h _ =>
    dsimp only [Prod.map, takePending]
    have hclose : ({ s.shiftNew k known with pending := none } : ScanState).closeClass =
        ({ s with pending := none } : ScanState).closeClass.shiftNew k known :=
      closeClass_shiftNew { s with pending := none }
    have hfunctions : known.functions.length ≤
        ({ s with pending := none } : ScanState).closeClass.functions.length := by
      rw [functions_closeClass]
      exact (length_known_le hknown).1
    rw [← feedTrailing_shiftNew, hclose]
    refine Prod.ext (congrArg (feedTrailing · trailing) ?_) rfl
    simp only [shiftNew, DefHeader.declare_add, mapAge_changeFrom_cons hfunctions]
  · dsimp only
    rw [feedTrailing_shiftNew, closeClass_shiftNew]
    split
    · rfl
    · next module? names _ =>
      have hknown' : known.Extends (s.feedTrailing trailing).closeClass.headings := by
        rw [headings_closeClass, headings_feedTrailing]
        exact hknown
      have himports := (length_known_le hknown').2
      dsimp only [Prod.map]
      rw [readImport_add]
      refine Prod.ext ?_ rfl
      simp only [shiftNew, Prod.map, mapAge_changeFrom_cons himports]
  · exact Prod.ext (feedTrailing_shiftNew s trailing) rfl

theorem stepCode_shiftNew :
    stepCode options (s.shiftNew k known) (n + k) code trailing indent following =
      (stepCode options s n code trailing indent following).map (·.shiftNew k known) id := by
  have hlatest : ({ s.shiftNew k known with latest := none } : ScanState) =
      ({ s with latest := none } : ScanState).shiftNew k known := rfl
  unfold stepCode
  rw [hlatest]
  -- forgetting the latest declaration changes no record
  change known.Extends ({ s with latest := none } : ScanState).headings at hknown
  generalize ({ s with latest := none } : ScanState) = s at hknown ⊢
  have hcurrent : (s.shiftNew k known).current =
      s.current.map (OpenClass.shiftNew k known.classes[s.classes.length]?) := rfl
  dsimp only
  split
  · exact stepClass_shiftNew hknown _
  · rw [hcurrent]
    cases hc : s.current with
    | none => exact stepOuter_shiftNew hknown
    | some c =>
      have hindent : (c.shiftNew k known.classes[s.classes.length]?).indent = c.indent := rfl
      dsimp only [Option.map_some]
      rw [hindent]
      split
      · exact stepMember_shiftNew hknown hc
      · exact stepOuter_shiftNew hknown

end Steps

/-- **A step further down** does the same there. -/
theorem step_shiftNew (hknown : known.Extends s.headings) :
    step options (s.shiftNew k known) (n + k) line following =
      (step options s n line following).map (·.shiftNew k known) id := by
  refine (passesStrings_shiftNew k known).step (fixBodyIndent_shiftNew s line)
    fun strings _ _ _ => stepCode_shiftNew ?_
  have hheadings : ({ s.fixBodyIndent line with strings } : ScanState).headings = s.headings :=
    headings_fixBodyIndent s line
  rw [hheadings]
  exact hknown

/-- **A scan further down** finds the same records there. -/
theorem scanLines_shiftNew (hknown : known.Extends s.headings) (lines : List Text) :
    scanLines options (s.shiftNew k known) (n + k) lines =
      (scanLines options s n lines).shiftNew k known := by
  -- the known records stay known from step to step, so each step is one further down
  fun_induction scanLines options s n lines with
  | case1 s n => rw [scanLines]
  | case2 s n line lines s' m hstep ih =>
    have hgrows : Grows n line s.headings (step options s n line lines).1.headings := step_grows
    rw [hstep] at hgrows
    have hnext : n + k + 1 + m = n + 1 + m + k := by omega
    rw [← ih (hgrows.extends hknown), scanLines, step_shiftNew hknown, hstep]
    dsimp only [Prod.map, id]
    rw [hnext]

/-! ## Idle lines -/

/-- Which kinds are listed does not matter to the change. -/
theorem ScanState.declarations_shiftNew (s : ScanState) :
    (s.shiftNew k known).declarations options = (s.declarations options).shiftNew k known := by
  rw [declarations_eq_found, declarations_eq_found, found_shiftNew]
  cases options.classes <;> rfl

/-- **An idle line only moves the records below it.** Put in front of the lines that are left,
outside of strings, it moves every record that is made from these lines one line down, and changes
nothing else. -/
theorem declarations_cons_idle (hs : s.strings.isOpen = false) {extra : Text}
    (hextra : isIdle extra = true) (rest : List Text) :
    (scanLines options s n (extra :: rest)).declarations options =
      ((scanLines options s n rest).declarations options).shiftNew 1 s.found := by
  have hdown : scanLines options (s.shiftNew 1 s.found) (n + 1) rest =
      (scanLines options s n rest).shiftNew 1 s.found :=
    scanLines_shiftNew s.found.extends_headings rest
  rw [shiftNew_found] at hdown
  have hskip : scanLines options s n (extra :: rest) = scanLines options s (n + 1) rest := by
    rw [scanLines, step_of_isIdle hs hextra]
    rfl
  rw [hskip, hdown, declarations_shiftNew]

/-- The state after a class header on the first line: the class waits for a description and for the
indentation of its body. -/
def afterHeader : ScanState :=
  { current := some { header := { name := "C".toList, line := 1, isExported := true }, indent := 0 }
    latest := some .openClass }

/-- A comment that looks like a header with a string, deeper than the body of the class. -/
def commentedHeader : Text := "      # def f(\"\"\":".toList

/-- A description and a method for the class. -/
def bodyLines : List Text := ["  \"\"\"A class.\"\"\"".toList, "  def g(self):".toList]

theorem declarations_cons_idle_afterHeader :
    afterHeader.strings.isOpen = false ∧ isIdle commentedHeader = true ∧
      (scanLines {} afterHeader 2 (commentedHeader :: bodyLines)).declarations {} =
        ((scanLines {} afterHeader 2 bodyLines).declarations {}).shiftNew 1 afterHeader.found ∧
      ((scanLines {} afterHeader 2 bodyLines).declarations {}).recordLines = [1, 3] ∧
      ((scanLines {} afterHeader 2 (commentedHeader :: bodyLines)).declarations {}).recordLines =
      [1, 4] :=
  ⟨rfl, by decide +kernel, declarations_cons_idle rfl (by decide +kernel) _, by decide +kernel,
    by decide +kernel⟩

end Indented

end CodeIndex
