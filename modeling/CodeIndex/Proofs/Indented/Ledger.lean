import Mathlib.Algebra.Order.Group.Multiset
import CodeIndex.Proofs.Indented.Step
import CodeIndex.Proofs.Text.OpenString

/-!
# What a step does with strings

The ledger of a state holds the descriptions that were given to declarations, and the one that waits
for the next declaration. Making a declaration moves the waiting description to it, so the ledger
does not change; a completed string enters the ledger once, as the description of the latest
declaration or as the one that waits, and may replace another there. Over a whole step
(`step_settles`) the tracker is fed the line that is read, and the ledger grows at most by the
string that the line completes.
-/

namespace CodeIndex

open Text

/-- The descriptions of a class and of its methods. -/
def ClassDecl.descriptions (c : ClassDecl) : List Text :=
  c.description.toList ++ c.methods.filterMap (·.description)

/-- The descriptions of all records. -/
def Declarations.descriptions (d : Declarations) : List Text :=
  d.functions.filterMap (·.description) ++ d.classes.flatMap ClassDecl.descriptions ++
    d.interfaces.filterMap (·.description)

namespace Indented

variable {options : OutlineOptions} {s : ScanState} {n : Nat} {line : Text} {following : List Text}

/-! ## The ledger -/

/-- The descriptions of functions or methods. -/
def functionLedger (fs : List FunctionDecl) : Multiset Text := ↑(fs.filterMap (·.description))

@[simp] theorem functionLedger_cons (f : FunctionDecl) (fs : List FunctionDecl) :
    functionLedger (f :: fs) = ↑f.description.toList + functionLedger fs := by
  rw [functionLedger, List.filterMap_cons]
  cases f.description <;> simp [functionLedger]

/-- The descriptions of the open class. -/
def OpenClass.ledger (c : OpenClass) : Multiset Text :=
  ↑c.header.description.toList + functionLedger c.methods

theorem OpenClass.coe_descriptions_close (c : OpenClass) :
    (c.close.descriptions : Multiset Text) = c.ledger := by
  simp [close, ClassDecl.descriptions, ledger, functionLedger, ← Multiset.coe_add]

/-- A description in the place of the first one. -/
theorem functionLedger_mapHead_le (t : Text) (fs : List FunctionDecl) :
    functionLedger (mapHead (fun f => { f with description := some t }) fs) ≤
      functionLedger fs + {t} := by
  cases fs with
  | nil => exact Multiset.zero_le _
  | cons f fs =>
    refine Multiset.le_iff_count.2 fun a => ?_
    simp only [mapHead, functionLedger_cons, Option.toList_some, Multiset.coe_singleton,
      Multiset.count_add]
    omega

namespace ScanState

/-- The descriptions that were given to declarations, and the one that waits. -/
def ledger (s : ScanState) : Multiset Text := ↑(s.found.descriptions ++ s.pending.toList)

theorem ledger_eq (s : ScanState) :
    s.ledger = functionLedger s.functions + ↑(s.classes.flatMap ClassDecl.descriptions) +
      (s.current.map OpenClass.ledger).getD 0 + ↑s.pending.toList := by
  have hclasses (cs : List ClassDecl) :
      (cs.reverse.flatMap ClassDecl.descriptions : Multiset Text) =
        cs.flatMap ClassDecl.descriptions :=
    Multiset.coe_eq_coe.2 (cs.reverse_perm.flatMap_right _)
  obtain ⟨_, current, _⟩ := s
  cases current with
  | none =>
    simp [ledger, found, Declarations.descriptions, functionLedger, ← Multiset.coe_add, hclasses,
      add_assoc]
  | some c =>
    simp [ledger, found, Declarations.descriptions, functionLedger, ← Multiset.coe_add, hclasses,
      add_assoc, OpenClass.coe_descriptions_close]

@[simp] theorem ledger_closeClass (s : ScanState) : s.closeClass.ledger = s.ledger := by
  rw [ledger, found_closeClass, pending_closeClass, ledger]

/-- The description that waits is taken out of the ledger. -/
theorem ledger_takePending (s : ScanState) :
    s.takePending.2.ledger + ↑s.takePending.1.toList = s.ledger := by
  simp [ledger_eq, takePending]

/-- A change of the open class that adds at most `m` to its descriptions. -/
theorem ledger_mapCurrent_le {f : OpenClass → OpenClass} {m : Multiset Text}
    (h : ∀ c, (f c).ledger ≤ c.ledger + m) (s : ScanState) :
    (s.mapCurrent f).ledger ≤ s.ledger + m := by
  obtain ⟨_, current, _⟩ := s
  simp only [ledger_eq, mapCurrent]
  refine Multiset.le_iff_count.2 fun a => ?_
  cases current with
  | none =>
    simp only [Option.map_none, Option.getD_none, Multiset.count_add, Multiset.count_zero]
    omega
  | some c =>
    have := Multiset.le_iff_count.1 (h c) a
    simp only [Option.map_some, Option.getD_some, Multiset.count_add] at this ⊢
    omega

/-- **A string is attached once**: to the latest declaration, or to wait. -/
theorem ledger_attach_le (s : ScanState) (t : Text) : (s.attach t).ledger ≤ s.ledger + {t} := by
  cases hl : s.latest with
  | none =>
    rw [attach, hl]
    simp only [ledger_eq, Option.toList_some, Multiset.coe_singleton]
    refine Multiset.le_iff_count.2 fun a => ?_
    simp only [Multiset.count_add]
    omega
  | some l =>
    cases l with
    | function =>
      have hfunctions := functionLedger_mapHead_le t s.functions
      simp only [attach, hl, ledger_eq]
      refine Multiset.le_iff_count.2 fun a => ?_
      have := Multiset.le_iff_count.1 hfunctions a
      simp only [Multiset.count_add] at this ⊢
      omega
    | openClass =>
      rw [attach, hl]
      refine ledger_mapCurrent_le (fun c => ?_) s
      refine Multiset.le_iff_count.2 fun a => ?_
      simp only [OpenClass.ledger, Option.toList_some, Multiset.coe_singleton, Multiset.count_add]
      omega
    | method =>
      rw [attach, hl]
      refine ledger_mapCurrent_le (fun c => ?_) s
      simp only [OpenClass.ledger, add_assoc]
      exact add_le_add_right (functionLedger_mapHead_le t c.methods) _

@[simp] theorem strings_attach (s : ScanState) (t : Text) : (s.attach t).strings = s.strings := by
  unfold attach
  dsimp only
  split <;> rfl

end ScanState

/-! ## Strings that are completed -/

/-- The string completed last, unless it is empty. -/
def news (t : StringTracker) : Option Text := t.completed.filter (· ≠ [])

/-- From `s` to `s'` the tracker becomes `t`, the completed string is taken, and it enters the
ledger at most once. -/
structure Settles (s : ScanState) (t : StringTracker) (s' : ScanState) : Prop where
  strings : s'.strings = { t with completed := none }
  ledger : s'.ledger ≤ s.ledger + ↑(news t).toList

namespace Settles

variable {s' u u' : ScanState} {t : StringTracker}

/-- No string is completed. -/
theorem of_completed (ht : s'.strings = t) (hcompleted : t.completed = none)
    (hledger : s'.ledger ≤ s.ledger) : Settles s t s' where
  strings := by
    rw [ht]
    obtain ⟨quote, parts, completed⟩ := t
    obtain rfl : completed = none := hcompleted
    rfl
  ledger := hledger.trans (Multiset.le_add_right _ _)

theorem mono (h : Settles s t s') (hbefore : s.ledger ≤ u.ledger) (hafter : u'.ledger ≤ s'.ledger)
    (hstrings : u'.strings = s'.strings) : Settles u t u' where
  strings := hstrings.trans h.strings
  ledger := hafter.trans (h.ledger.trans (add_le_add_left hbefore _))

/-- A completed string is used, or lost. -/
theorem useCompleted {use : ScanState → Text → ScanState}
    (hstrings : ∀ s t, (use s t).strings = s.strings)
    (hledger : ∀ s t, (use s t).ledger ≤ s.ledger + {t}) (s : ScanState) :
    Settles s s.strings (s.useCompleted use) := by
  unfold ScanState.useCompleted
  dsimp only [StringTracker.takeCompleted]
  split
  · next c t hc =>
    refine ⟨hstrings _ _, ?_⟩
    rw [news, hc]
    exact hledger { s with strings := { s.strings with completed := none } } (c :: t)
  · exact ⟨rfl, Multiset.le_add_right s.ledger _⟩

/-- The string behind a header is fed to a closed tracker. -/
theorem feedTrailing (hquote : s.strings.quote = none) (hs : s.strings.completed = none)
    (trailing : Text) : Settles s (s.strings.feed trailing).2 (s.feedTrailing trailing) := by
  have hnone (h : cutDelimiter? trailing = none) : s.strings.feed trailing = (false, s.strings) :=
    StringTracker.feed_of_cutDelimiter?_eq_none hquote h
  unfold ScanState.feedTrailing
  split
  · next h =>
    subst h
    rw [hnone rfl]
    exact of_completed rfl hs le_rfl
  · dsimp only
    split
    · refine mono (useCompleted ?_ ?_ { s with strings := (s.strings.feed trailing).2 }) (u := s)
        le_rfl le_rfl rfl
      · intro s t
        split
        · exact s.strings_attach t
        · rfl
      · intro s t
        split
        · exact s.ledger_attach_le t
        · exact Multiset.le_add_right _ _
    · next hbelongs =>
      have hcut : cutDelimiter? trailing = none := by
        rw [StringTracker.feed_fst, hquote] at hbelongs
        simpa using hbelongs
      rw [hnone hcut]
      exact of_completed rfl hs le_rfl

end Settles

/-! ## Lines of code -/

section Code

variable {code trailing : Text} {indent : Nat}

/-- After a change that keeps the tracker and adds nothing to the ledger, the string behind a header
is fed. -/
theorem settles_of_feedTrailing {u : ScanState} (hquote : s.strings.quote = none)
    (hs : s.strings.completed = none) (hstrings : u.strings = s.strings)
    (hledger : u.ledger ≤ s.ledger) (trailing : Text) :
    Settles s (s.strings.feed trailing).2 (u.feedTrailing trailing) := by
  have h := Settles.feedTrailing (hstrings ▸ hquote) (hstrings ▸ hs) trailing
  rw [hstrings] at h
  exact h.mono hledger le_rfl rfl

variable (hquote : s.strings.quote = none) (hs : s.strings.completed = none)
include hquote hs

theorem stepClass_settles {name : Text} :
    Settles s (s.strings.feed trailing).2
      (stepClass s n name code trailing indent following).1 := by
  unfold stepClass
  apply settles_of_feedTrailing hquote hs
  · exact s.strings_closeClass
  · -- the description that waited is that of the new class
    rw [← s.ledger_closeClass, ← s.closeClass.ledger_takePending]
    simp [ScanState.ledger_eq, ScanState.takePending, OpenClass.ledger, functionLedger]

theorem stepMember_settles {c : OpenClass} :
    Settles s (s.strings.feed trailing).2
      (stepMember s c n code trailing indent following).1 := by
  unfold stepMember
  split
  · split
    · apply settles_of_feedTrailing hquote hs
      · rfl
      · -- an attribute has no description
        rw [← add_zero s.ledger]
        refine ScanState.ledger_mapCurrent_le (fun c => ?_) s
        exact (add_zero c.ledger).ge
    · apply settles_of_feedTrailing hquote hs
      · rfl
      · -- the description that waited is that of the new method
        rw [← s.ledger_takePending]
        refine ScanState.ledger_mapCurrent_le (fun c => ?_) s.takePending.2
        simp only [OpenClass.ledger, functionLedger_cons, DefHeader.declare]
        exact (add_left_comm _ _ _).trans (add_comm _ _) |>.le
  · exact Settles.feedTrailing hquote hs trailing

theorem stepOuter_settles :
    Settles s (s.strings.feed trailing).2
      (stepOuter options s n code trailing indent following).1 := by
  unfold stepOuter
  split
  · apply settles_of_feedTrailing hquote hs
    · exact ScanState.strings_closeClass _
    · -- the description that waited is that of the new function
      rw [← s.ledger_takePending, ← s.takePending.2.ledger_closeClass]
      simp only [ScanState.ledger_eq, functionLedger_cons, DefHeader.declare]
      refine Multiset.le_iff_count.2 fun a => ?_
      simp only [Multiset.count_add]
      omega
  · have hclose := (Settles.feedTrailing hquote hs trailing).mono le_rfl
      (ScanState.ledger_closeClass _).le (ScanState.strings_closeClass _)
    dsimp only
    split
    · exact hclose
    · exact hclose.mono le_rfl le_rfl rfl
  · exact Settles.feedTrailing hquote hs trailing

theorem stepCode_settles :
    Settles s (s.strings.feed trailing).2
      (stepCode options s n code trailing indent following).1 := by
  unfold stepCode
  -- forgetting the latest declaration changes no ledger
  refine Settles.mono (s := { s with latest := none }) ?_ le_rfl le_rfl rfl
  change Settles ({ s with latest := none } : ScanState)
    (({ s with latest := none } : ScanState).strings.feed trailing).2 _
  replace hquote : ({ s with latest := none } : ScanState).strings.quote = none := hquote
  replace hs : ({ s with latest := none } : ScanState).strings.completed = none := hs
  generalize ({ s with latest := none } : ScanState) = s at hquote hs ⊢
  dsimp only
  split
  · exact stepClass_settles hquote hs
  · split
    · split
      · exact stepMember_settles hquote hs
      · exact stepOuter_settles hquote hs
    · exact stepOuter_settles hquote hs

end Code

/-! ## Any line -/

/-- The tracker behind a line; a comment outside of strings is not fed to it. -/
def fed (t : StringTracker) (line : Text) : StringTracker :=
  if startsWith ['#'] (trimLeft line) && !t.isOpen then t else (t.feed line).2

/-- A line that a closed tracker is fed: it goes to it as a whole, or its code holds no delimiter
and what follows the code goes to it with the same result as the whole line. -/
theorem feed_of_splitHeaderString {t : StringTracker} (ht : t.quote = none) {code trailing : Text}
    (hsplit : splitHeaderString line = (code, trailing)) :
    code = line ∧ (t.feed line).1 = true ∨
      cutDelimiter? code = none ∧ t.feed trailing = t.feed line := by
  cases hcut : cutDelimiter? line with
  | none =>
    obtain ⟨rfl, rfl⟩ :=
      Prod.mk.inj ((splitHeaderString_of_cutDelimiter?_eq_none hcut).symm.trans hsplit)
    refine .inr ⟨hcut, ?_⟩
    rw [StringTracker.feed_of_cutDelimiter?_eq_none ht hcut,
      StringTracker.feed_of_cutDelimiter?_eq_none ht rfl]
  | some cut =>
    obtain ⟨head, q, tail⟩ := cut
    obtain hwhole | ⟨hheader, -⟩ := splitHeaderString_of_cutDelimiter? hcut
    · refine .inl ⟨(Prod.mk.inj (hwhole.symm.trans hsplit)).1.symm, ?_⟩
      rw [StringTracker.feed_fst, hcut, Option.isSome_some, Bool.or_true]
    · obtain ⟨rfl, rfl⟩ := Prod.mk.inj (hheader.symm.trans hsplit)
      refine .inr ⟨cutDelimiter?_head hcut, ?_⟩
      have hbehind : cutDelimiter? (q.chars ++ tail) = some ([], q, tail) :=
        cutDelimiter?_append quoteFree_nil q tail
      rw [StringTracker.feed, StringTracker.feed, ht, hcut, hbehind]

theorem ledger_fixBodyIndent_le (s : ScanState) (line : Text) :
    (s.fixBodyIndent line).ledger ≤ s.ledger := by
  unfold ScanState.fixBodyIndent
  split
  · rw [← add_zero s.ledger]
    refine ScanState.ledger_mapCurrent_le (fun c => ?_) s
    split <;> exact (add_zero c.ledger).ge
  · exact le_rfl

/-- **A step feeds its line to the tracker, and uses the string that is completed at most once.** -/
theorem step_settles (hs : s.strings.completed = none) :
    Settles s (fed s.strings line) (step options s n line following).1 := by
  refine Settles.mono (s := s.fixBodyIndent line) ?_ (ledger_fixBodyIndent_le s line) le_rfl rfl
  unfold step fed
  rw [← s.strings_fixBodyIndent line] at hs ⊢
  generalize s.fixBodyIndent line = s at hs ⊢
  -- a line that belongs to a string as a whole
  have hbelongs : Settles s (s.strings.feed line).2
      (ScanState.useCompleted .attach { s with strings := (s.strings.feed line).2 }) :=
    (Settles.useCompleted ScanState.strings_attach ScanState.ledger_attach_le
      { s with strings := (s.strings.feed line).2 }).mono le_rfl le_rfl rfl
  dsimp only
  split
  · exact .of_completed rfl hs le_rfl
  · cases hquote : s.strings.quote with
    | some q =>
      have hopen : s.strings.isOpen = true := by rw [StringTracker.isOpen, hquote]; rfl
      have hfst : (s.strings.feed line).1 = true := by rw [StringTracker.feed_fst, hquote]; rfl
      simp only [hopen, ↓reduceIte, hfst]
      exact hbelongs
    | none =>
      have hopen : s.strings.isOpen = false := by rw [StringTracker.isOpen, hquote]; rfl
      obtain ⟨code, trailing, hsplit⟩ :
          ∃ code trailing, splitHeaderString line = (code, trailing) :=
        ⟨_, _, rfl⟩
      simp only [hopen, Bool.false_eq_true, ↓reduceIte, hsplit]
      obtain ⟨rfl, hfst⟩ | ⟨hcode, hfeed⟩ := feed_of_splitHeaderString hquote hsplit
      · rw [if_pos hfst]
        exact hbelongs
      · rw [StringTracker.feed_of_cutDelimiter?_eq_none hquote hcode]
        simp only [Bool.false_eq_true, ↓reduceIte]
        split
        · next hblank =>
          rw [StringTracker.feed_of_cutDelimiter?_eq_none hquote
            (cutDelimiter?_of_trimLeft_eq_nil hblank)]
          exact .of_completed rfl hs le_rfl
        · rw [← hfeed]
          exact stepCode_settles hquote hs

end Indented

end CodeIndex
