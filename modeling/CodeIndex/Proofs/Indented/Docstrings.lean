import CodeIndex.Proofs.Indented.Ledger
import CodeIndex.Proofs.Indented.Opaque
import CodeIndex.Proofs.Indented.Placement
import CodeIndex.Proofs.Text.Lines

/-!
# Where descriptions come from

`completions` lists the strings that a scan completes, with the lines that complete them. Each is a
triple-quoted string of the source (`EndsString`), because the tracker of the scan holds the parts
of the string that is open (`Tracks`). The descriptions of all records, and the one left waiting,
are different ones of these strings (`descriptions_completed`): none is used twice.
-/

namespace CodeIndex.Indented

open Text

variable {options : OutlineOptions} {s : ScanState} {n : Nat} {line : Text} {following : List Text}
  {src : List Text}

/-! ## Strings of a source -/

/-- The text of a string over several lines: its parts, trimmed, with single spaces between those
that are not empty. -/
def stringText (parts : List Text) : Text := trim (join [' '] ((parts.map trim).filter (· ≠ [])))

/-- The number of lines that the header of a class or a function takes beyond its first: those of
its parentheses. -/
def headerLines (code : Text) (following : List Text) : Nat :=
  match classHeader? code, defHeader? code with
  | some _, _ => baseLines code following
  | none, some h => (readSignature h.call following).2
  | none, none => 0

/-- A string with delimiter `q` opens on a line and does not end there, and `tail` stands behind its
delimiter. The string goes on with the line with index `k`. That is the next line; but where a
header comes before the string, the lines that the header takes may come first. -/
def OpensString (src : List Text) (q : Delimiter) (tail : Text) (k : Nat) : Prop :=
  ∃ j line head, src[j]? = some line ∧ cutDelimiter? line = some (head, q, tail) ∧
    ¬ q.chars <:+: tail ∧
      (k = j + 1 ∨ splitHeaderString line = (head, q.chars ++ tail) ∧
        k = j + 1 + headerLines head (src.drop (j + 1)))

/-- A triple-quoted string ends on the line with number `n`, and `t` is its text. -/
inductive EndsString (src : List Text) : Nat → Text → Prop
  /-- The string opens on the same line. -/
  | oneLine {i : Nat} {line head tail body rest : Text} {q : Delimiter}
      (hline : src[i]? = some line) (hopen : cutDelimiter? line = some (head, q, tail))
      (hclose : cut? q.chars tail = some (body, rest)) : EndsString src (i + 1) (trim body)
  /-- The string opens above, and the lines since then hold no delimiter of its kind. -/
  | lines {i k : Nat} {line tail head rest : Text} {q : Delimiter}
      (hopen : OpensString src q tail k) (hk : k ≤ i)
      (hinside : ∀ l ∈ (src.take i).drop k, ¬ q.chars <:+: l)
      (hline : src[i]? = some line) (hclose : cut? q.chars line = some (head, rest)) :
      EndsString src (i + 1) (stringText (tail :: (src.take i).drop k ++ [head]))

theorem singleLine_trim {t : Text} (h : SingleLine t) : SingleLine (trim t) :=
  fun c hc => h c (strip_subset _ _ hc)

theorem singleLine_join {ls : List Text} (h : ∀ l ∈ ls, SingleLine l) :
    SingleLine (join [' '] ls) := by
  induction ls with
  | nil => exact singleLine_nil
  | cons l ls ih =>
    obtain ⟨hl, hls⟩ := List.forall_mem_cons.1 h
    cases ls with
    | nil => rwa [join_singleton]
    | cons l' ls =>
      rw [join_cons_cons, singleLine_append, singleLine_append]
      exact ⟨hl, by decide, ih hls⟩

namespace EndsString

variable {t : Text} (h : EndsString src n t)
include h

theorem trimmed : ∃ u, t = trim u := by
  cases h with
  | oneLine => exact ⟨_, rfl⟩
  | lines => exact ⟨_, rfl⟩

/-- **The text of a string is on one line** if the lines of the source are. -/
theorem singleLine (hsrc : ∀ l ∈ src, SingleLine l) : SingleLine t := by
  cases h with
  | oneLine hline hopen hclose =>
    have := hsrc _ (List.mem_of_getElem? hline)
    rw [eq_of_cutDelimiter? hopen, eq_of_cut? hclose] at this
    simp only [singleLine_append] at this
    exact singleLine_trim this.2.2.1.1
  | lines hopen hk hinside hline hclose =>
    obtain ⟨j, line', head', hline', hcut, -⟩ := hopen
    have htail := hsrc _ (List.mem_of_getElem? hline')
    rw [eq_of_cutDelimiter? hcut] at htail
    have hhead := hsrc _ (List.mem_of_getElem? hline)
    rw [eq_of_cut? hclose] at hhead
    simp only [singleLine_append] at htail hhead
    refine singleLine_trim (singleLine_join ?_)
    intro l hl
    obtain ⟨l', hl', rfl⟩ := List.mem_map.1 (List.mem_of_mem_filter hl)
    refine singleLine_trim ?_
    simp only [List.cons_append, List.mem_cons, List.mem_append, List.mem_nil_iff, or_false] at hl'
    rcases hl' with rfl | hl' | rfl
    · exact htail.2.2
    · exact hsrc _ (List.mem_of_mem_take (List.mem_of_mem_drop hl'))
    · exact hhead.1.1

end EndsString

/-! ## The tracker along a scan -/

/-- What a line does to a tracker that holds no completed string. -/
inductive Feeds (t : StringTracker) (line : Text) : StringTracker → Prop
  /-- The line does not belong to a string. -/
  | pass (hquote : t.quote = none) : Feeds t line t
  /-- The line is one of an open string. -/
  | go {q : Delimiter} (hquote : t.quote = some q) (hnone : ¬ q.chars <:+: line) :
      Feeds t line { t with parts := trim line :: t.parts }
  /-- The line closes the open string. -/
  | close {q : Delimiter} {head rest : Text} (hquote : t.quote = some q)
      (hclose : cut? q.chars line = some (head, rest)) :
      Feeds t line { completed := some (StringTracker.joinParts (trim head :: t.parts)) }
  /-- A string opens on the line and goes on. -/
  | start {q : Delimiter} {head tail : Text} (hquote : t.quote = none)
      (hopen : cutDelimiter? line = some (head, q, tail)) (hnone : ¬ q.chars <:+: tail) :
      Feeds t line { t with quote := some q, parts := [trim tail] }
  /-- A string opens and closes on the line. -/
  | whole {q : Delimiter} {head tail body rest : Text} (hquote : t.quote = none)
      (hopen : cutDelimiter? line = some (head, q, tail))
      (hclose : cut? q.chars tail = some (body, rest)) :
      Feeds t line { t with completed := some (trim body) }

theorem feeds_fed (t : StringTracker) (line : Text) : Feeds t line (fed t line) := by
  cases hquote : t.quote with
  | some q =>
    have hopen : t.isOpen = true := by rw [StringTracker.isOpen, hquote, Option.isSome_some]
    rw [fed, hopen, Bool.not_true, Bool.and_false, if_neg Bool.false_ne_true]
    cases hcut : cut? q.chars line with
    | some cut =>
      rw [StringTracker.feed_closing hquote hcut]
      exact .close hquote hcut
    | none =>
      have hnone := cut?_eq_none_iff.1 hcut
      rw [StringTracker.feed_inside hquote hnone]
      exact .go hquote hnone
  | none =>
    rw [fed]
    split
    · exact .pass hquote
    · cases hcut : cutDelimiter? line with
      | none =>
        rw [StringTracker.feed_of_cutDelimiter?_eq_none hquote hcut]
        exact .pass hquote
      | some cut =>
        obtain ⟨head, q, tail⟩ := cut
        cases hbody : cut? q.chars tail with
        | some body =>
          simp only [StringTracker.feed, hquote, hcut, hbody]
          rw [← hquote]
          exact .whole hquote hcut hbody
        | none =>
          rw [StringTracker.feed_opening hquote hcut hbody]
          exact .start hquote hcut (cut?_eq_none_iff.1 hbody)

/-- Before the line with index `i`, no completed string is left in the tracker; and if a string is
open, it opened above, and the tracker holds the trimmed parts of it, the last one first. -/
structure Tracks (src : List Text) (i : Nat) (t : StringTracker) : Prop where
  taken : t.completed = none
  parts : ∀ q, t.quote = some q → ∃ tail k, OpensString src q tail k ∧ k ≤ i ∧
    (∀ l ∈ (src.take i).drop k, ¬ q.chars <:+: l) ∧
      t.parts = ((tail :: (src.take i).drop k).map trim).reverse

/-- **A string that a line completes is one of the source.** -/
theorem Tracks.endsString {i : Nat} {t : StringTracker} (ht : Tracks src i t)
    (hline : src[i]? = some line) {text : Text} (h : text ∈ news (fed t line)) :
    EndsString src (i + 1) text := by
  have hfeeds := feeds_fed t line
  generalize fed t line = t' at hfeeds h
  have hcompleted : t'.completed = some text := (Option.filter_eq_some_iff.1 h).1
  cases hfeeds with
  | pass => exact absurd (ht.taken.symm.trans hcompleted) (by simp)
  | go => exact absurd (ht.taken.symm.trans hcompleted) (by simp)
  | start => exact absurd (ht.taken.symm.trans hcompleted) (by simp)
  | close hquote hclose =>
    obtain ⟨tail, k, hopen, hk, hinside, hparts⟩ := ht.parts _ hquote
    obtain rfl := Option.some.inj hcompleted
    convert EndsString.lines hopen hk hinside hline hclose using 1
    rw [StringTracker.joinParts, stringText, hparts]
    simp
  | whole hquote hopen hclose =>
    obtain rfl := Option.some.inj hcompleted
    exact .oneLine hline hopen hclose

/-- A header takes the lines of its parentheses, or none if it declares nothing. -/
theorem snd_stepCode_of_header {code trailing : Text} {indent : Nat}
    (h : (classHeader? code).isSome = true ∨ (defHeader? code).isSome = true) :
    (stepCode options s n code trailing indent following).2 = 0 ∨
      (stepCode options s n code trailing indent following).2 = headerLines code following := by
  cases hclass : classHeader? code with
  | some name =>
    right
    simp only [stepCode, stepClass, headerLines, hclass]
  | none =>
    rw [hclass, Option.isSome_none] at h
    obtain ⟨d, hdef⟩ := Option.isSome_iff_exists.1 (h.resolve_left Bool.false_ne_true)
    have hmember (s : ScanState) (c : OpenClass) :
        (stepMember s c n code trailing indent following).2 = 0 ∨
          (stepMember s c n code trailing indent following).2 = headerLines code following := by
      simp only [stepMember, headerLines, hclass, hdef]
      split
      · exact .inr rfl
      · exact .inl rfl
    have houter (s : ScanState) :
        (stepOuter options s n code trailing indent following).2 = 0 ∨
          (stepOuter options s n code trailing indent following).2 =
            headerLines code following := by
      cases indent with
      | zero => exact .inr (by simp only [stepOuter, headerLines, hclass, hdef])
      | succ indent => exact .inl rfl
    simp only [stepCode, hclass]
    split
    · split
      · exact hmember _ _
      · exact houter _
    · exact houter _

/-- A line with a delimiter takes no other line, except for those of a header before the
delimiter. -/
theorem snd_step_of_delimiter (hs : s.strings.quote = none) {head tail : Text} {q : Delimiter}
    (hcut : cutDelimiter? line = some (head, q, tail)) :
    (step options s n line following).2 = 0 ∨ splitHeaderString line = (head, q.chars ++ tail) ∧
      (step options s n line following).2 = headerLines head following := by
  obtain hsplit | ⟨hsplit, hheader⟩ := splitHeaderString_of_cutDelimiter? hcut
  · have hfst : ((s.fixBodyIndent line).strings.feed line).1 = true := by
      rw [StringTracker.feed_fst, hcut, Option.isSome_some, Bool.or_true]
    left
    simp only [step, hsplit, ite_self, hfst, ↓reduceIte]
    split <;> rfl
  · have hopen : (s.fixBodyIndent line).strings.isOpen = false := by
      rw [StringTracker.isOpen, ScanState.strings_fixBodyIndent, hs, Option.isSome_none]
    simp only [step, hopen, Bool.false_eq_true, ↓reduceIte, hsplit]
    split
    · exact .inl rfl
    · split
      · exact .inl rfl
      · split
        · exact .inl rfl
        · exact (snd_stepCode_of_header hheader).imp id fun h => ⟨trivial, h⟩

section Iteration

variable {a b : ScanState × Nat}

theorem Iteration.tracks (h : Iteration options src a b) (ha : Tracks src a.2 a.1.strings) :
    Tracks src b.2 b.1.strings := by
  obtain ⟨line, n, hline, hstep, hb⟩ := h
  have hstrings : b.1.strings = { fed a.1.strings line with completed := none } := by
    have := (@step_settles options a.1 (a.2 + 1) line (src.drop (a.2 + 1)) ha.taken).strings
    rwa [hstep] at this
  refine ⟨by rw [hstrings], fun q hq => ?_⟩
  have hfeeds := feeds_fed a.1.strings line
  rw [hstrings] at hq ⊢
  generalize fed a.1.strings line = t' at hfeeds hq ⊢
  cases hfeeds with
  | pass hquote => exact absurd (hquote.symm.trans hq) (by simp)
  | @go q' hquote hnone =>
    obtain rfl : q' = q := Option.some.inj (hquote.symm.trans hq)
    obtain ⟨tail, k, hopen, hk, hinside, hparts⟩ := ha.parts q' hquote
    -- inside of a string the cursor moves by one line
    have hn : n = 0 := by
      have := (@step_of_inside options a.1 (a.2 + 1) line (src.drop (a.2 + 1)) q' hquote hnone).2
      rwa [hstep] at this
    have hread : (src.take b.2).drop k = (src.take a.2).drop k ++ [line] := by
      have hlength : k ≤ (src.take a.2).length := by
        rw [List.length_take]
        have := (List.getElem?_eq_some_iff.1 hline).1
        omega
      rw [hb, hn, Nat.add_zero, List.take_add_one, hline, List.drop_append_of_le_length hlength]
      rfl
    refine ⟨tail, k, hopen, by omega, ?_, ?_⟩
    · rw [hread]
      exact List.forall_mem_append.2 ⟨hinside, List.forall_mem_singleton.2 hnone⟩
    · rw [hread, ← List.cons_append, List.map_append, List.reverse_append, ← hparts]
      rfl
  | close hquote => exact absurd hq (by simp)
  | @start q' head tail hquote hopen hnone =>
    obtain rfl : q' = q := Option.some.inj hq
    have hnext : b.2 = a.2 + 1 ∨ splitHeaderString line = (head, q'.chars ++ tail) ∧
        b.2 = a.2 + 1 + headerLines head (src.drop (a.2 + 1)) := by
      have :=
        @snd_step_of_delimiter options a.1 (a.2 + 1) line (src.drop (a.2 + 1)) hquote _ _ _ hopen
      rw [hstep] at this
      rw [hb]
      exact this.imp (congrArg _) (And.imp_right (congrArg _))
    refine ⟨tail, b.2, ⟨a.2, line, head, hline, hopen, hnone, hnext⟩, le_rfl, ?_, ?_⟩
    · simp
    · simp
  | whole hquote => exact absurd (hquote.symm.trans hq) (by simp)

theorem Tracks.reflTransGen (h : Relation.ReflTransGen (Iteration options src) a b)
    (ha : Tracks src a.2 a.1.strings) : Tracks src b.2 b.1.strings := by
  induction h with
  | refl => exact ha
  | tail _ hstep ih => exact hstep.tracks ih

end Iteration

/-! ## The strings that a scan completes -/

/-- The non-empty strings that a scan completes, each with the number of the line that completes
it. -/
def completions (options : OutlineOptions) (s : ScanState) (lineNo : Nat) :
    List Text → List (Nat × Text)
  | [] => []
  | line :: lines =>
    let (s', n) := step options s lineNo line lines
    ((news (fed s.strings line)).map (lineNo, ·)).toList ++
      completions options s' (lineNo + 1 + n) (lines.drop n)
termination_by lines => lines.length
decreasing_by simp only [List.length_cons, List.length_drop]; omega

/-- **Every string that a scan completes enters the ledger at most once.** -/
theorem ledger_scanLines_le (hs : s.strings.completed = none) (lines : List Text) :
    (scanLines options s n lines).ledger ≤
      s.ledger + ↑((completions options s n lines).map (·.2)) := by
  fun_induction scanLines options s n lines with
  | case1 s n => exact Multiset.le_add_right _ _
  | case2 s n line lines s' k hstep ih =>
    have hsettles := @step_settles options s n line lines hs
    rw [hstep] at hsettles
    have hnext := ih (by rw [hsettles.strings])
    rw [completions, hstep]
    refine hnext.trans ?_
    rw [List.map_append, ← Multiset.coe_add, ← add_assoc]
    refine add_le_add_left (hsettles.ledger.trans_eq ?_) _
    rw [Option.toList_map, List.map_map]
    simp [Function.comp_def]

theorem le_of_mem_completions {lines : List Text} {p : Nat × Text}
    (h : p ∈ completions options s n lines) : n ≤ p.1 := by
  fun_induction completions options s n lines with
  | case1 => exact absurd h List.not_mem_nil
  | case2 s n line lines s' k hstep ih =>
    rcases List.mem_append.1 h with h | h
    · obtain ⟨t, -, rfl⟩ := Option.map_eq_some_iff.1 (Option.mem_toList.1 h)
      exact le_rfl
    · have := ih h
      omega

/-- A line completes at most one string. -/
theorem pairwise_completions (options : OutlineOptions) (s : ScanState) (n : Nat)
    (lines : List Text) : ((completions options s n lines).map (·.1)).Pairwise (· < ·) := by
  fun_induction completions options s n lines with
  | case1 => exact .nil
  | case2 s n line lines s' k hstep ih =>
    rw [List.map_append, List.pairwise_append]
    refine ⟨?_, ih, ?_⟩
    · cases news (fed s.strings line) <;> simp
    · intro i hi j hj
      obtain ⟨p, hp, rfl⟩ := List.mem_map.1 hi
      obtain ⟨t, -, rfl⟩ := Option.map_eq_some_iff.1 (Option.mem_toList.1 hp)
      obtain ⟨p', hp', rfl⟩ := List.mem_map.1 hj
      have := le_of_mem_completions hp'
      show n < p'.1
      omega

/-- A string is completed by the line that the scan reads in one of the states that it goes
through. -/
theorem exists_of_mem_completions {a : ScanState × Nat} (hi : a.2 ≤ src.length) {p : Nat × Text}
    (h : p ∈ completions options a.1 (a.2 + 1) (src.drop a.2)) :
    ∃ b line, Relation.ReflTransGen (Iteration options src) a b ∧ src[b.2]? = some line ∧
      p.1 = b.2 + 1 ∧ p.2 ∈ news (fed b.1.strings line) := by
  -- by induction on the number of lines left
  induction hk : src.length - a.2 using Nat.strong_induction_on generalizing a with
  | _ k ih =>
    rcases Nat.eq_or_lt_of_le hi with heq | hlt
    · rw [heq, List.drop_length, completions] at h
      exact absurd h List.not_mem_nil
    · have hline := List.getElem?_eq_getElem hlt
      have hnext : Iteration options src a
          ((step options a.1 (a.2 + 1) src[a.2] (src.drop (a.2 + 1))).1, a.2 + 1 +
            (step options a.1 (a.2 + 1) src[a.2] (src.drop (a.2 + 1))).2) := ⟨_, _, hline, rfl, rfl⟩
      rw [List.drop_eq_getElem_cons hlt, completions] at h
      rcases List.mem_append.1 h with h | h
      · obtain ⟨t, ht, rfl⟩ := Option.map_eq_some_iff.1 (Option.mem_toList.1 h)
        exact ⟨a, src[a.2], .refl, hline, rfl, ht⟩
      · have hcursor := hnext.lt_and_le
        rw [List.drop_drop, Nat.add_right_comm] at h
        obtain ⟨b, line, hrun, hb⟩ := ih _ (by omega) hcursor.2 h rfl
        exact ⟨b, line, .head hnext hrun, hb⟩

/-- The strings that a whole scan completes are strings of the source, and not empty. -/
theorem endsString_of_mem_completions {p : Nat × Text} (h : p ∈ completions options {} 1 src) :
    EndsString src p.1 p.2 ∧ p.2 ≠ [] := by
  obtain ⟨b, line, hrun, hline, hp, hnews⟩ :=
    @exists_of_mem_completions options src ({}, 0) (Nat.zero_le _) p h
  have htracks : Tracks src b.2 b.1.strings := Tracks.reflTransGen hrun ⟨rfl, by simp⟩
  refine ⟨hp ▸ htracks.endsString hline hnews, ?_⟩
  simpa using (Option.filter_eq_some_iff.1 hnews).2

/-! ## Descriptions -/

/-- What is listed is part of what was found. -/
theorem descriptions_sublist (s : ScanState) :
    (s.declarations options).descriptions.Sublist s.found.descriptions := by
  rw [ScanState.declarations_eq_found]
  split
  · exact List.Sublist.refl _
  · simp only [Declarations.descriptions, List.flatMap_nil, List.append_nil]
    exact ((List.sublist_append_left _ _).append (List.Sublist.refl _))

/-- **Every description is a string of the source, and no string is used twice.** Over the whole
scan, the descriptions of all records and the one that is left waiting are completed strings, each
used once; so there are no more descriptions than completed strings. Each is not empty, starts and
ends with no blank, and holds no line boundary. The completed strings are triple-quoted strings of
the source, on different lines. -/
theorem descriptions_completed (options : OutlineOptions) (content : Text) :
    ((declarations options content).descriptions ++
        (scanLines options {} 1 (lines content)).pending.toList).Subperm
      ((completions options {} 1 (lines content)).map (·.2)) ∧
    (declarations options content).descriptions.length ≤
      (completions options {} 1 (lines content)).length ∧
    (∀ t ∈ (declarations options content).descriptions, Solid t ∧ SingleLine t ∧
      ∃ n, (n, t) ∈ completions options {} 1 (lines content)) ∧
    ((completions options {} 1 (lines content)).map (·.1)).Pairwise (· < ·) ∧
    ∀ n t, (n, t) ∈ completions options {} 1 (lines content) → EndsString (lines content) n t := by
  have hledger := @ledger_scanLines_le options {} 1 rfl (lines content)
  have hfound : ((scanLines options {} 1 (lines content)).found.descriptions ++
      (scanLines options {} 1 (lines content)).pending.toList).Subperm
        ((completions options {} 1 (lines content)).map (·.2)) := by
    rw [← Multiset.coe_le]
    simpa [ScanState.ledger, ScanState.found, Declarations.descriptions] using hledger
  have hlisted := @descriptions_sublist options (scanLines options {} 1 (lines content))
  have hused := (hlisted.append (List.Sublist.refl _)).subperm.trans hfound
  refine ⟨hused, ?_, fun t ht => ?_, pairwise_completions .., fun n t h =>
    (endsString_of_mem_completions h).1⟩
  · have := hused.length_le
    rw [List.length_append, List.length_map] at this
    exact (Nat.le_add_right _ _).trans this
  · obtain ⟨⟨n, t'⟩, hmem, rfl⟩ := List.mem_map.1 (hused.subset (List.mem_append_left _ ht))
    obtain ⟨hends, hne⟩ := endsString_of_mem_completions hmem
    obtain ⟨u, hu⟩ := hends.trimmed
    refine ⟨?_, hends.singleLine fun l => singleLine_of_mem_lines, n, hmem⟩
    dsimp only at hu hne ⊢
    rw [hu] at hne ⊢
    exact .of_trim_ne_nil hne

/-- A class with a string behind its header, an empty string, and strings before and after
methods. -/
def docstringsModel : Text :=
  ("\"\"\"Module.\"\"\"\nclass A: \"\"\"Doc\n  of A\"\"\"\n    def f(self):\n" ++
    "        \"\"\" \"\"\"\n        '''of f'''\n    '''of g'''\n    def g(self): pass\n" ++
    "x = 1\n\"\"\"left\"\"\"\n").toList

/-- The string of the module is replaced by that of the class, and the last one is left. -/
theorem descriptions_completed_docstringsModel :
    (declarations {} docstringsModel).descriptions =
        ["Doc of A".toList, "of f".toList, "of g".toList] ∧
      (scanLines {} {} 1 (lines docstringsModel)).pending = some "left".toList ∧
      completions {} {} 1 (lines docstringsModel) =
        [(1, "Module.".toList), (3, "Doc of A".toList), (6, "of f".toList), (7, "of g".toList),
          (10, "left".toList)] ∧
      ∀ t ∈ (declarations {} docstringsModel).descriptions, Solid t ∧ SingleLine t ∧
        ∃ n, (n, t) ∈ completions {} {} 1 (lines docstringsModel) :=
  ⟨by decide +kernel, by decide +kernel, by decide +kernel,
    (descriptions_completed {} docstringsModel).2.2.1⟩

end CodeIndex.Indented
