import CodeIndex.Indented.Outline
import CodeIndex.Proofs.Indented.Header

/-!
# Steps of the scan over quiet lines

A line is quiet when no string is open and it holds no delimiter. The step over such a line is
`stepCode` on the line itself (`step_code`), or on the header before a string (`step_eq_stepCode`);
it leaves the state alone when the line is blank or a comment (`step_of_isIdle`). A string on a line
of its own is attached (`step_string`). A change of the state that no string sees passes a step over
any line when it passes what the line does as code (`PassesStrings.step`).

`Reads options s n block s'` says that the lines `block`, the first of which has number `n`, lead
from the state `s` to `s'` whatever follows them; blocks that are read one after the other are read
as one (`Reads.append`).
-/

namespace CodeIndex.Indented

open Text

variable {options : OutlineOptions} {s : ScanState} {n : Nat} {line : Text} {following : List Text}

/-! ## Fields that an operation leaves alone -/

namespace ScanState

@[simp] theorem strings_fixBodyIndent (s : ScanState) (line : Text) :
    (s.fixBodyIndent line).strings = s.strings := by
  unfold fixBodyIndent
  split <;> rfl

theorem fixBodyIndent_of_margin (h : indentation line = 0) : s.fixBodyIndent line = s := by
  unfold fixBodyIndent mapCurrent
  split
  · obtain ⟨_, current, _⟩ := s
    cases current with
    | none => rfl
    | some c => simp [h]
  · rfl

theorem setStrings_eq_self {t : StringTracker} (h : s.strings = t) :
    { s with strings := t } = s := by
  rw [← h]

theorem feedTrailing_nil (s : ScanState) : s.feedTrailing [] = s := by
  rw [feedTrailing, if_pos rfl]

@[simp] theorem strings_closeClass (s : ScanState) : s.closeClass.strings = s.strings := by
  unfold closeClass
  split <;> rfl

@[simp] theorem current_closeClass (s : ScanState) : s.closeClass.current = none := by
  unfold closeClass
  split
  · assumption
  · rfl

@[simp] theorem pending_closeClass (s : ScanState) : s.closeClass.pending = s.pending := by
  unfold closeClass
  split <;> rfl

@[simp] theorem functions_closeClass (s : ScanState) : s.closeClass.functions = s.functions := by
  unfold closeClass
  split <;> rfl

@[simp] theorem imports_closeClass (s : ScanState) : s.closeClass.imports = s.imports := by
  unfold closeClass
  split <;> rfl

theorem map_mapHead {α β : Type} {f : α → α} {g : α → β} (h : ∀ a, g (f a) = g a) (l : List α) :
    (mapHead f l).map g = l.map g := by
  cases l with
  | nil => rfl
  | cons a l => simp [mapHead, h]

/-- The records that a scan has found so far, in the order of the source. -/
def found (s : ScanState) : Declarations where
  functions := s.functions.reverse
  classes := s.classes.reverse ++ (s.current.map OpenClass.close).toList
  imports := s.imports.reverse

@[simp] theorem found_closeClass (s : ScanState) : s.closeClass.found = s.found := by
  obtain ⟨_, current, _⟩ := s
  cases current with
  | none => rfl
  | some c => simp [found, closeClass]

/-- The outline lists what the scan has found. -/
theorem declarations_eq_found (s : ScanState) :
    s.declarations options =
      { s.found with classes := if options.classes then s.found.classes else [] } := by
  rw [← found_closeClass]
  simp [declarations, found]

/-- A change of the state that no string sees: it keeps the tracker and the latest declaration, and
a string is attached before it as well as after it. -/
structure PassesStrings (φ : ScanState → ScanState) : Prop where
  strings : ∀ s, (φ s).strings = s.strings
  latest : ∀ s, (φ s).latest = s.latest
  setStrings : ∀ (s : ScanState) (t : StringTracker),
    φ { s with strings := t } = { φ s with strings := t }
  attach : ∀ (s : ScanState) (t : Text), (φ s).attach t = φ (s.attach t)

namespace PassesStrings

variable {φ : ScanState → ScanState} (hφ : PassesStrings φ)
include hφ

theorem useCompleted {use : ScanState → Text → ScanState} (huse : ∀ s t, use (φ s) t = φ (use s t))
    (s : ScanState) : (φ s).useCompleted use = φ (s.useCompleted use) := by
  unfold ScanState.useCompleted
  rw [hφ.strings]
  dsimp only
  split
  · rw [← hφ.setStrings, huse]
  · exact (hφ.setStrings s _).symm

theorem feedTrailing (s : ScanState) (t : Text) :
    (φ s).feedTrailing t = φ (s.feedTrailing t) := by
  have huse (s : ScanState) (t : Text) :
      (if (φ s).latest.isSome then (φ s).attach t else φ s) =
        φ (if s.latest.isSome then s.attach t else s) := by
    rw [hφ.latest, hφ.attach]
    split <;> rfl
  unfold ScanState.feedTrailing
  rw [hφ.strings]
  dsimp only
  split
  · rfl
  · split
    · rw [← hφ.setStrings, hφ.useCompleted huse]
    · exact (hφ.setStrings s _).symm

/-- Such a change passes a step, perhaps under another number of the line, when it passes what the
line does as code. -/
theorem step {n' : Nat} (hfix : (φ s).fixBodyIndent line = φ (s.fixBodyIndent line))
    (hcode : ∀ (strings : StringTracker) (code trailing : Text) (indent : Nat),
      stepCode options (φ { s.fixBodyIndent line with strings }) n' code trailing indent following =
        (stepCode options { s.fixBodyIndent line with strings } n code trailing indent
          following).map φ id) :
    Indented.step options (φ s) n' line following =
      (Indented.step options s n line following).map φ id := by
  unfold Indented.step
  rw [hfix]
  dsimp only
  rw [hφ.strings]
  generalize (if (s.fixBodyIndent line).strings.isOpen = true then (line, [])
    else splitHeaderString line) = code
  rw [← hφ.setStrings]
  split
  · rfl
  · split
    · exact Prod.ext (hφ.useCompleted hφ.attach _) rfl
    · split
      · rfl
      · exact hcode _ _ _ _

end PassesStrings

end ScanState

/-! ## One line -/

theorem splitHeaderString_of_cutDelimiter?_eq_none (h : cutDelimiter? line = none) :
    splitHeaderString line = (line, []) := by
  rw [splitHeaderString, h]

/-- The line is blank or a comment. -/
def isIdle (line : Text) : Bool := trimLeft line = [] || startsWith ['#'] (trimLeft line)

/-- **An idle line outside of strings leaves the state alone**, whatever waits in it. -/
theorem step_of_isIdle (hs : s.strings.isOpen = false) (hline : isIdle line = true) :
    step options s n line following = (s, 0) := by
  have hfix : s.fixBodyIndent line = s := by
    unfold ScanState.fixBodyIndent
    refine if_neg fun hcode => ?_
    simp only [isIdle, Bool.or_eq_true, decide_eq_true_eq] at hline
    simp only [Bool.and_eq_true, decide_eq_true_eq, Bool.not_eq_true'] at hcode
    obtain ⟨⟨-, hne⟩, hhash⟩ := hcode
    rcases hline with hblank | hcomment
    · exact hne hblank
    · rw [hcomment] at hhash
      exact Bool.noConfusion hhash
  cases hcomment : startsWith ['#'] (trimLeft line) with
  | true => simp only [step, hfix, hcomment, hs, Bool.not_false, Bool.and_self, ↓reduceIte]
  | false =>
    have hblank : trimLeft line = [] := by simpa [isIdle, hcomment] using hline
    -- blanks hold no delimiter, so the tracker does not see them
    have hdelimiter : cutDelimiter? line = none := cutDelimiter?_of_trimLeft_eq_nil hblank
    have hquote : s.strings.quote = none := by simpa [StringTracker.isOpen] using hs
    rw [hblank] at hcomment
    simp only [step, hfix, hblank, hcomment, hs, Bool.false_and, Bool.false_eq_true, ↓reduceIte,
      splitHeaderString_of_cutDelimiter?_eq_none hdelimiter,
      StringTracker.feed_of_cutDelimiter?_eq_none hquote hdelimiter]

/-- A line with a first character that is no hash is code. -/
theorem isCode_of_trimLeft {c : Char} {t : Text} (h : trimLeft line = c :: t) (hc : c ≠ '#') :
    startsWith ['#'] (trimLeft line) = false ∧ trimLeft line ≠ [] := by
  rw [h]
  exact ⟨by simp [startsWith, after?_cons_ne (Ne.symm hc)], List.cons_ne_nil c t⟩

theorem isCode_of_columnAttribute? {name call : Text}
    (h : columnAttribute? line = some (name, call)) :
    startsWith ['#'] (trimLeft line) = false ∧ trimLeft line ≠ [] := by
  obtain ⟨s, s', s'', ns, rest, rfl, -, -, hs, hne, hw, -⟩ := exists_of_columnAttribute? h
  obtain ⟨c, name, rfl⟩ := List.exists_cons_of_ne_nil hne
  refine isCode_of_trimLeft ((trimLeft_append hs _).trans (trimLeft_append_word hne hw _)) ?_
  rintro rfl
  exact absurd (hw '#' (by simp)) (by decide)

/-- **A line of code outside of strings**, perhaps with a string behind a header. -/
theorem step_eq_stepCode {code trailing : Text} (hs : s.strings.quote = none)
    (hsplit : splitHeaderString line = (code, trailing)) (hd : cutDelimiter? code = none)
    (hc : startsWith ['#'] (trimLeft line) = false) (hl : trimLeft line ≠ []) :
    step options s n line following =
      stepCode options (s.fixBodyIndent line) n code trailing (indentation line) following := by
  have hopen : s.strings.isOpen = false := by rw [StringTracker.isOpen, hs, Option.isSome_none]
  have hfeed : s.strings.feed code = (false, s.strings) :=
    StringTracker.feed_of_cutDelimiter?_eq_none hs hd
  simp only [step, hc, Bool.false_and, Bool.false_eq_true, ↓reduceIte,
    ScanState.strings_fixBodyIndent, hopen, hsplit, hfeed, hl,
    ScanState.setStrings_eq_self (ScanState.strings_fixBodyIndent s line)]

theorem step_code (hs : s.strings = {}) (hd : cutDelimiter? line = none)
    (hc : startsWith ['#'] (trimLeft line) = false) (hl : trimLeft line ≠ []) :
    step options s n line following =
      stepCode options (s.fixBodyIndent line) n line [] (indentation line) following :=
  step_eq_stepCode (by rw [hs]) (splitHeaderString_of_cutDelimiter?_eq_none hd) hd hc hl

/-- A string that only blanks precede does not follow a header. -/
theorem splitHeaderString_string {head : Text} (hh : ∀ c ∈ head, isBlank c = true) (q : Delimiter)
    (tail : Text) :
    splitHeaderString (head ++ (q.chars ++ tail)) = (head ++ (q.chars ++ tail), []) := by
  rw [splitHeaderString, cutDelimiter?_append (quoteFree_of_isBlank hh)]
  cases head with
  | nil => rfl
  | cons c head =>
    have hend : endsWithChar ':' (trimRight (c :: head)) = false := by
      rw [trimRight_eq_nil hh]
      rfl
    simp only [hend, Bool.false_and, Bool.false_eq_true, ↓reduceIte]

/-- **A string on a line of its own** documents the latest declaration, or waits. -/
theorem step_string (hs : s.strings = {}) {head doc : Text} (hh : ∀ c ∈ head, isBlank c = true)
    (hd : QuoteFree doc) (ht : trim doc = doc) (hne : doc ≠ []) (q : Delimiter) :
    step options s n (head ++ (q.chars ++ (doc ++ q.chars))) following =
      ((s.fixBodyIndent (head ++ (q.chars ++ (doc ++ q.chars)))).attach doc, 0) := by
  set line := head ++ (q.chars ++ (doc ++ q.chars)) with hline
  have hq : QuoteFree head := quoteFree_of_isBlank hh
  have hc : startsWith ['#'] (trimLeft line) = false := by
    rw [hline, trimLeft_append hh]
    cases q <;> rfl
  have hopen : s.strings.isOpen = false := by simp [hs, StringTracker.isOpen]
  have hfeed : s.strings.feed line = (true, { completed := some doc }) := by
    have := StringTracker.feed_string (s := s.strings) (by rw [hs]) hq hd q []
    rw [List.append_nil, ht, hs] at this
    rw [hs, this]
  have hsplit : splitHeaderString line = (line, []) :=
    splitHeaderString_string hh q (doc ++ q.chars)
  have huse : ({ s.fixBodyIndent line with
      strings := { completed := some doc } } : ScanState).useCompleted ScanState.attach =
        (s.fixBodyIndent line).attach doc := by
    obtain ⟨c, doc, rfl⟩ := List.exists_cons_of_ne_nil hne
    have hself := ScanState.setStrings_eq_self ((ScanState.strings_fixBodyIndent s line).trans hs)
    simp only [ScanState.useCompleted, StringTracker.takeCompleted]
    rw [hself]
  simp only [step, hc, Bool.false_and, Bool.false_eq_true, ↓reduceIte,
    ScanState.strings_fixBodyIndent, hopen, hsplit, hfeed, huse]

/-! ## Blocks of lines -/

/-- The lines `block`, the first of which has number `n`, lead from one state to another whatever
follows them. -/
def Reads (options : OutlineOptions) (s : ScanState) (n : Nat) (block : List Text)
    (s' : ScanState) : Prop :=
  ∀ rest, scanLines options s n (block ++ rest) = scanLines options s' (n + block.length) rest

namespace Reads

theorem nil (s : ScanState) (n : Nat) : Reads options s n [] s := fun _ => rfl

theorem append {s₁ s₂ s₃ : ScanState} {b₁ b₂ : List Text} (h₁ : Reads options s₁ n b₁ s₂)
    (h₂ : Reads options s₂ (n + b₁.length) b₂ s₃) : Reads options s₁ n (b₁ ++ b₂) s₃ := by
  intro rest
  rw [List.append_assoc, h₁, h₂, List.length_append, Nat.add_assoc]

/-- A line that takes no other with it. -/
theorem one {s₁ s₂ : ScanState} {line : Text}
    (h : ∀ following, step options s₁ n line following = (s₂, 0)) :
    Reads options s₁ n [line] s₂ := by
  intro rest
  rw [List.singleton_append, scanLines, h]
  rfl

theorem cons {s₁ s₂ s₃ : ScanState} {line : Text} {block : List Text}
    (h₁ : ∀ following, step options s₁ n line following = (s₂, 0))
    (h₂ : Reads options s₂ (n + 1) block s₃) : Reads options s₁ n (line :: block) s₃ :=
  (one h₁).append h₂

theorem blanks (hs : s.strings = {}) (n gap : Nat) :
    Reads options s n (List.replicate gap []) s := by
  induction gap generalizing n with
  | zero => exact .nil s n
  | succ gap ih => exact .cons (fun _ => step_of_isIdle (by rw [hs]; rfl) rfl) (ih (n + 1))

end Reads

end CodeIndex.Indented
