import CodeIndex.Proofs.Indented.Step
import CodeIndex.Proofs.Text.OpenString

/-!
# What stands in a string

The text of a string ends up in a description, and nowhere else. `ScanState.skeleton` is a state of
the scan without descriptions, and without the text of the string that is being read: what remains
are the records, the open class with its indentation, and the delimiter of the open string. The
skeleton of the next state is a function of the skeleton, and so is the number of lines that a step
takes (`step_congr`); a line inside of a string changes no skeleton (`step_of_inside`).
So two sources that differ inside of a string have the same outline up to descriptions
(`declarations_undescribed_congr`).
-/

namespace CodeIndex

/-! ## Records without descriptions -/

/-- The function without its description. -/
def FunctionDecl.undescribed (f : FunctionDecl) : FunctionDecl := { f with description := none }

/-- The class without its description and those of its methods. -/
def ClassDecl.undescribed (c : ClassDecl) : ClassDecl :=
  { c with methods := c.methods.map FunctionDecl.undescribed, description := none }

/-- The records without descriptions. -/
def Declarations.undescribed (d : Declarations) : Declarations :=
  { d with functions := d.functions.map FunctionDecl.undescribed
           classes := d.classes.map ClassDecl.undescribed }

namespace Indented

open Text

variable {options : OutlineOptions} {s : ScanState} {n : Nat} {line : Text} {following : List Text}

/-- The class without its description and those of its methods. -/
def OpenClass.undescribed (c : OpenClass) : OpenClass :=
  { c with header := c.header.undescribed, methods := c.methods.map FunctionDecl.undescribed }

/-- A state without descriptions and without the text of strings. -/
def ScanState.skeleton (s : ScanState) : ScanState where
  strings := { quote := s.strings.quote }
  current := s.current.map OpenClass.undescribed
  functions := s.functions.map FunctionDecl.undescribed
  classes := s.classes.map ClassDecl.undescribed
  imports := s.imports

theorem OpenClass.undescribed_close (c : OpenClass) :
    c.close.undescribed = c.undescribed.close := by
  simp [OpenClass.undescribed, OpenClass.close, ClassDecl.undescribed]

namespace ScanState

/-! ## Operations on a state -/

theorem skeleton_closeClass (s : ScanState) : s.closeClass.skeleton = s.skeleton.closeClass := by
  obtain ⟨_, current, _⟩ := s
  cases current with
  | none => rfl
  | some c => simp [skeleton, closeClass, OpenClass.undescribed_close]

/-- A change of the open class that is a change of what the skeleton shows of it. -/
theorem skeleton_mapCurrent {f g : OpenClass → OpenClass}
    (h : ∀ c, (f c).undescribed = g c.undescribed) (s : ScanState) :
    (s.mapCurrent f).skeleton = s.skeleton.mapCurrent g := by
  simp [skeleton, mapCurrent, Function.comp_def, h]

theorem skeleton_mapCurrent_eq_self {f : OpenClass → OpenClass}
    (h : ∀ c, (f c).undescribed = c.undescribed) (s : ScanState) :
    (s.mapCurrent f).skeleton = s.skeleton := by
  rw [skeleton_mapCurrent (g := id) h, mapCurrent, Option.map_id, id_eq]

/-- **A description is no part of the skeleton.** -/
theorem skeleton_attach (s : ScanState) (t : Text) : (s.attach t).skeleton = s.skeleton := by
  have hmap : ∀ fs : List FunctionDecl,
      (mapHead (fun f => { f with description := some t }) fs).map FunctionDecl.undescribed =
        fs.map FunctionDecl.undescribed := map_mapHead fun _ => rfl
  cases hl : s.latest with
  | none =>
    rw [attach, hl]
    rfl
  | some l =>
    cases l with
    | function => simp only [attach, hl, skeleton, hmap]
    | openClass =>
      rw [attach, hl]
      refine skeleton_mapCurrent_eq_self (fun c => ?_) s
      rfl
    | method =>
      rw [attach, hl]
      refine skeleton_mapCurrent_eq_self (fun c => ?_) s
      simp only [OpenClass.undescribed, hmap]

theorem skeleton_useCompleted {use : ScanState → Text → ScanState}
    (h : ∀ s t, (use s t).skeleton = s.skeleton) (s : ScanState) :
    (s.useCompleted use).skeleton = s.skeleton := by
  unfold useCompleted
  dsimp only
  split
  · exact h _ _
  · rfl

/-- Of a trailing string the skeleton tells only whether it is left open. -/
theorem skeleton_feedTrailing (s : ScanState) (t : Text) :
    (s.feedTrailing t).skeleton =
      { s.skeleton with strings :=
        { quote := if t = [] then s.strings.quote else (s.strings.feed t).2.quote } } := by
  unfold feedTrailing
  split
  · rfl
  · dsimp only
    split
    · rw [skeleton_useCompleted]
      · rfl
      · intro s t
        split
        · exact skeleton_attach s t
        · rfl
    · rfl

theorem skeleton_fixBodyIndent (s : ScanState) (line : Text) :
    (s.fixBodyIndent line).skeleton = s.skeleton.fixBodyIndent line := by
  have hopen : s.skeleton.strings.isOpen = s.strings.isOpen := rfl
  unfold fixBodyIndent
  rw [hopen]
  split
  · refine skeleton_mapCurrent (fun c => ?_) s
    have hbody : c.undescribed.bodyIndent = c.bodyIndent := rfl
    have hindent : c.undescribed.indent = c.indent := rfl
    rw [hbody, hindent]
    split <;> rfl
  · rfl

end ScanState

/-! ## Steps of states with the same skeleton -/

section Congr

variable {t : ScanState} (h : s.skeleton = t.skeleton)
include h

theorem quote_congr : s.strings.quote = t.strings.quote :=
  congrArg (·.strings.quote) h

theorem feedTrailing_congr (trailing : Text) :
    (s.feedTrailing trailing).skeleton = (t.feedTrailing trailing).skeleton := by
  rw [ScanState.skeleton_feedTrailing, ScanState.skeleton_feedTrailing, h, quote_congr h,
    StringTracker.quote_feed_congr (quote_congr h)]

theorem closeClass_congr : s.closeClass.skeleton = t.closeClass.skeleton := by
  rw [ScanState.skeleton_closeClass, ScanState.skeleton_closeClass, h]

theorem current_congr :
    s.current = none ∧ t.current = none ∨
      ∃ c d, s.current = some c ∧ t.current = some d ∧ c.undescribed = d.undescribed := by
  have hmap : s.current.map OpenClass.undescribed = t.current.map OpenClass.undescribed :=
    congrArg (·.current) h
  cases hs : s.current with
  | none =>
    rw [hs, Option.map_none, eq_comm, Option.map_eq_none_iff] at hmap
    exact .inl ⟨rfl, hmap⟩
  | some c =>
    rw [hs, Option.map_some, eq_comm, Option.map_eq_some_iff] at hmap
    obtain ⟨d, hd, hcd⟩ := hmap
    exact .inr ⟨c, d, rfl, hd, hcd.symm⟩

theorem mapCurrent_congr {f g : OpenClass → OpenClass}
    (hfg : ∀ c d, c.undescribed = d.undescribed → (f c).undescribed = (g d).undescribed) :
    (s.mapCurrent f).skeleton = (t.mapCurrent g).skeleton := by
  have hcurrent : (s.current.map f).map OpenClass.undescribed =
      (t.current.map g).map OpenClass.undescribed := by
    obtain ⟨hs, ht⟩ | ⟨c, d, hs, ht, hcd⟩ := current_congr h
    · rw [hs, ht]
      rfl
    · rw [hs, ht]
      exact congrArg some (hfg c d hcd)
  exact congrArg₂ (fun (u : ScanState) c => { u with current := c }) h hcurrent

variable {code trailing : Text} {indent : Nat}

theorem stepClass_congr {name : Text} :
    (stepClass s n name code trailing indent following).1.skeleton =
      (stepClass t n name code trailing indent following).1.skeleton := by
  let header : ClassDecl := { name, line := n, isExported := true }
  refine feedTrailing_congr ?_ trailing
  exact congrArg (fun u : ScanState => { u with current := some { header, indent } })
    (closeClass_congr h)

theorem stepMember_congr {c d : OpenClass} (hc : c.undescribed = d.undescribed) :
    (stepMember s c n code trailing indent following).1.skeleton =
        (stepMember t d n code trailing indent following).1.skeleton ∧
      (stepMember s c n code trailing indent following).2 =
        (stepMember t d n code trailing indent following).2 := by
  have hbody : c.bodyIndent = d.bodyIndent := congrArg (·.bodyIndent) hc
  unfold stepMember
  rw [hbody]
  split
  · split
    · refine ⟨feedTrailing_congr (mapCurrent_congr h fun c d hcd => ?_) trailing, rfl⟩
      exact congrArg (fun e : OpenClass => { e with
        properties := (readAttribute code following).1.toList ++ e.properties }) hcd
    · next header _ =>
      let sig := (readSignature header.call following).1
      let method := header.declare { sig with params := sig.params.filter (!isImplicitParam ·) } n
        false
      let add (m : FunctionDecl) (e : OpenClass) : OpenClass := { e with methods := m :: e.methods }
      refine ⟨feedTrailing_congr ?_ trailing, rfl⟩
      refine mapCurrent_congr (s := { s with pending := none }) (t := { t with pending := none })
        (f := add (method s.pending)) (g := add (method t.pending)) h fun c d hcd => ?_
      exact congrArg (add (method none)) hcd
  · exact ⟨feedTrailing_congr h trailing, rfl⟩

theorem stepOuter_congr :
    (stepOuter options s n code trailing indent following).1.skeleton =
        (stepOuter options t n code trailing indent following).1.skeleton ∧
      (stepOuter options s n code trailing indent following).2 =
        (stepOuter options t n code trailing indent following).2 := by
  unfold stepOuter
  split
  · next header _ =>
    refine ⟨feedTrailing_congr ?_ trailing, rfl⟩
    let function := header.declare (readSignature header.call following).1 n true none
    exact congrArg (fun u : ScanState => { u with functions := function :: u.functions })
      (closeClass_congr (show ({ s with pending := none } : ScanState).skeleton =
        ({ t with pending := none } : ScanState).skeleton from h))
  · dsimp only
    have hclose := closeClass_congr (feedTrailing_congr h trailing)
    split
    · exact ⟨hclose, rfl⟩
    · next module? names _ =>
      refine ⟨?_, rfl⟩
      exact congrArg (fun u : ScanState =>
        { u with imports := (readImport module? names n following).1 :: u.imports }) hclose
  · exact ⟨feedTrailing_congr h trailing, rfl⟩

theorem stepCode_congr :
    (stepCode options s n code trailing indent following).1.skeleton =
        (stepCode options t n code trailing indent following).1.skeleton ∧
      (stepCode options s n code trailing indent following).2 =
        (stepCode options t n code trailing indent following).2 := by
  -- forgetting the latest declaration changes no skeleton
  have h : ({ s with latest := none } : ScanState).skeleton =
      ({ t with latest := none } : ScanState).skeleton := h
  unfold stepCode
  generalize ({ s with latest := none } : ScanState) = s at h ⊢
  generalize ({ t with latest := none } : ScanState) = t at h ⊢
  dsimp only
  split
  · exact ⟨stepClass_congr h, rfl⟩
  · obtain ⟨hs, ht⟩ | ⟨c, d, hs, ht, hcd⟩ := current_congr h
    · rw [hs, ht]
      exact stepOuter_congr h
    · have hindent : c.indent = d.indent := congrArg (·.indent) hcd
      rw [hs, ht]
      dsimp only
      rw [hindent]
      split
      · exact stepMember_congr h hcd
      · exact stepOuter_congr h

/-- **The skeleton of the next state, and the lines that a step takes, depend on the skeleton
only.** -/
theorem step_congr :
    (step options s n line following).1.skeleton = (step options t n line following).1.skeleton ∧
      (step options s n line following).2 = (step options t n line following).2 := by
  have h : (s.fixBodyIndent line).skeleton = (t.fixBodyIndent line).skeleton := by
    rw [ScanState.skeleton_fixBodyIndent, ScanState.skeleton_fixBodyIndent, h]
  unfold step
  generalize s.fixBodyIndent line = s at h ⊢
  generalize t.fixBodyIndent line = t at h ⊢
  have hopen : s.strings.isOpen = t.strings.isOpen := congrArg Option.isSome (quote_congr h)
  dsimp only
  rw [hopen]
  split
  · exact ⟨h, rfl⟩
  · generalize (if t.strings.isOpen then (line, []) else splitHeaderString line) = code
    -- the tracker changes alike, and takes the line in both states or in neither
    have hfed : ({ s with strings := (s.strings.feed code.1).2 } : ScanState).skeleton =
        ({ t with strings := (t.strings.feed code.1).2 } : ScanState).skeleton :=
      congrArg₂ (fun (u : ScanState) quote => { u with strings := { quote } }) h
        (StringTracker.quote_feed_congr (quote_congr h) code.1)
    have hbelongs : (s.strings.feed code.1).1 = (t.strings.feed code.1).1 := by
      rw [StringTracker.feed_fst, StringTracker.feed_fst, quote_congr h]
    rw [hbelongs]
    split
    · refine ⟨?_, rfl⟩
      dsimp only
      rw [ScanState.skeleton_useCompleted ScanState.skeleton_attach,
        ScanState.skeleton_useCompleted ScanState.skeleton_attach, hfed]
    · split
      · exact ⟨hfed, rfl⟩
      · exact stepCode_congr hfed

/-- **States with the same skeleton have the same skeleton at the end of the scan.** -/
theorem scanLines_congr (lines : List Text) :
    (scanLines options s n lines).skeleton = (scanLines options t n lines).skeleton := by
  fun_induction scanLines options s n lines generalizing t with
  | case1 s n => rw [scanLines, h]
  | case2 s n line lines s' k hstep ih =>
    obtain ⟨hskeleton, hk⟩ := @step_congr options s n line lines t h
    obtain ⟨t', k', hstep'⟩ : ∃ t' k', step options t n line lines = (t', k') := ⟨_, _, rfl⟩
    rw [hstep, hstep'] at hskeleton hk
    obtain rfl : k = k' := hk
    rw [scanLines, hstep']
    exact ih hskeleton

end Congr

/-! ## Lines in a string -/

/-- **A line in a string leaves the skeleton alone**, and takes no other line. -/
theorem step_of_inside {q : Delimiter} (hq : s.strings.quote = some q)
    (hl : ¬ q.chars <:+: line) :
    (step options s n line following).1.skeleton = s.skeleton ∧
      (step options s n line following).2 = 0 := by
  have hopen : s.strings.isOpen = true := by rw [StringTracker.isOpen, hq, Option.isSome_some]
  have hfix : s.fixBodyIndent line = s := by simp [ScanState.fixBodyIndent, hopen]
  have hfeed : s.strings.feed line =
      (true, { s.strings with parts := trim line :: s.strings.parts }) := by
    simp only [StringTracker.feed, hq, cut?_eq_none_iff.2 hl]
  simp only [step, hfix, hopen, Bool.not_true, Bool.and_false, Bool.false_eq_true, ↓reduceIte,
    hfeed]
  refine ⟨?_, trivial⟩
  rw [ScanState.skeleton_useCompleted ScanState.skeleton_attach]
  rfl

theorem scanLines_of_inside {q : Delimiter} (hq : s.strings.quote = some q) {inside : List Text}
    (h : ∀ line ∈ inside, ¬ q.chars <:+: line) (rest : List Text) :
    (scanLines options s n (inside ++ rest)).skeleton =
      (scanLines options s (n + inside.length) rest).skeleton := by
  induction inside generalizing s n with
  | nil => rfl
  | cons line inside ih =>
    obtain ⟨hskeleton, hzero⟩ :=
      @step_of_inside options s n line (inside ++ rest) q hq (h line (by simp))
    obtain ⟨s', k, hstep⟩ : ∃ s' k, step options s n line (inside ++ rest) = (s', k) := ⟨_, _, rfl⟩
    rw [hstep] at hskeleton hzero
    obtain rfl : k = 0 := hzero
    -- the string is still open behind the line
    have hq' : s'.strings.quote = some q := (quote_congr hskeleton).trans hq
    rw [List.cons_append, scanLines, hstep]
    dsimp only
    rw [List.drop_zero, ih hq' fun l hl => h l (by simp [hl]), scanLines_congr hskeleton,
      List.length_cons]
    congr 2
    omega

/-- The outline without descriptions is that of the skeleton. -/
theorem ScanState.declarations_undescribed (s : ScanState) :
    (s.declarations options).undescribed = s.skeleton.declarations options := by
  rw [ScanState.declarations, ScanState.declarations, ← skeleton_closeClass]
  simp only [Declarations.undescribed, skeleton, List.map_reverse]
  split
  · rw [List.map_reverse]
  · rfl

/-- The lines from `i` up to `j` are those that a scan at line `i` reads before line `j`. -/
theorem forall_mem_take_drop {src : List Text} {i j : Nat} {p : Text → Prop}
    (h : ∀ k line, i ≤ k → k < j → src[k]? = some line → p line) :
    ∀ line ∈ (src.drop i).take (j - i), p line := by
  intro line hline
  obtain ⟨k, hk⟩ := List.mem_iff_getElem?.1 hline
  rw [List.getElem?_take] at hk
  split at hk
  · rw [List.getElem?_drop] at hk
    exact h (i + k) line (by omega) (by omega) hk
  · exact absurd hk (by simp)

/-- **What stands in a string is not read.** From any state in which a string is open, two sources
that differ only on lines without its delimiter, from the current line `i` up to line `j`, have the
same outline up to descriptions; whether line `j` closes the string does not matter. -/
theorem declarations_undescribed_congr {q : Delimiter} (hq : s.strings.quote = some q)
    {src₁ src₂ : List Text} {i j : Nat} (hij : i ≤ j) (hlength : src₁.length = src₂.length)
    (hsame : ∀ k, k < i ∨ j ≤ k → src₁[k]? = src₂[k]?)
    (h₁ : ∀ k line, i ≤ k → k < j → src₁[k]? = some line → ¬ q.chars <:+: line)
    (h₂ : ∀ k line, i ≤ k → k < j → src₂[k]? = some line → ¬ q.chars <:+: line) :
    ((scanLines options s (i + 1) (src₁.drop i)).declarations options).undescribed =
      ((scanLines options s (i + 1) (src₂.drop i)).declarations options).undescribed := by
  have hrest : src₁.drop j = src₂.drop j := by
    refine List.ext_getElem? fun k => ?_
    rw [List.getElem?_drop, List.getElem?_drop, hsame (j + k) (.inr (Nat.le_add_right j k))]
  -- each source is its lines in the string, and the common rest
  have hsplit : ∀ src : List Text, src.drop i = (src.drop i).take (j - i) ++ src.drop j := by
    intro src
    have hdrop : src.drop j = (src.drop i).drop (j - i) := by
      rw [List.drop_drop]
      congr 1
      omega
    rw [hdrop, List.take_append_drop]
  have hskeleton : (scanLines options s (i + 1) (src₁.drop i)).skeleton =
      (scanLines options s (i + 1) (src₂.drop i)).skeleton := by
    rw [hsplit src₁, hsplit src₂, scanLines_of_inside hq (forall_mem_take_drop h₁),
      scanLines_of_inside hq (forall_mem_take_drop h₂), hrest]
    simp only [List.length_take, List.length_drop, hlength]
  rw [ScanState.declarations_undescribed, ScanState.declarations_undescribed, hskeleton]

/-- A class header and a comment in a string are the same to the outline. -/
theorem declarations_undescribed_template :
    ((scanLines {} { strings := { quote := some .double } } 2
      ((["T = \"\"\"", "class A:", "\"\"\"", "def f():"].map String.toList).drop 1)).declarations
        {}).undescribed =
    ((scanLines {} { strings := { quote := some .double } } 2
      ((["T = \"\"\"", "    # A", "\"\"\"", "def f():"].map String.toList).drop 1)).declarations
        {}).undescribed := by
  refine declarations_undescribed_congr (i := 1) (j := 2) rfl (by decide) rfl ?_ ?_ ?_
  · intro k hk
    match k with
    | 0 => rfl
    | 1 => omega
    | k + 2 => rfl
  · intro k line h₁ h₂ hline
    obtain rfl : k = 1 := by omega
    obtain rfl := Option.some.inj hline
    decide
  · intro k line h₁ h₂ hline
    obtain rfl : k = 1 := by omega
    obtain rfl := Option.some.inj hline
    decide

end Indented

end CodeIndex
