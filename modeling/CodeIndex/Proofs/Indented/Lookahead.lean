import CodeIndex.Indented.Lookahead
import CodeIndex.Proofs.Indented.Header
import CodeIndex.Proofs.Text.Bracket

/-!
# Lines that a construct takes

A call takes the following lines up to the one where its parentheses balance (`collectCall_append`),
and none of them if they balance on the line where it starts (`collectCall_nested`). So signatures,
base lists and columns that are written on one line are read from that line, whatever follows. In
any case a reader takes at most the lines that follow (`collectCall_le`, `readImport_le`).
-/

namespace CodeIndex.Indented

open Text

/-- A balancer that is done reads no further line. -/
theorem balance_of_isDone {b : Balancer} (h : b.isDone = true) (fed : Nat) (following : List Text) :
    balance b fed following = (b, fed) := by
  cases following with
  | nil => rfl
  | cons line lines => rw [balance, if_pos h]

/-- With `depth` parentheses open, one is open at the end of each of the following lines but the
last, where none is. -/
def ClosesAtLast : (depth : Int) → (following : List Text) → Prop
  | depth, [] => depth ≤ 0
  | depth, line :: lines => 0 < depth ∧ ClosesAtLast (depth + parenDepth line) lines

/-- A call closes at the end of one of the following lines, or never. -/
theorem closesAtLast_or_opened (depth : Int) (following : List Text) :
    (∃ read, read <+: following ∧ ClosesAtLast depth read) ∨
      ∀ read, read <+: following → 0 < depth + parenDepth read.flatten := by
  induction following generalizing depth with
  | nil =>
    by_cases hd : depth ≤ 0
    · exact .inl ⟨[], List.nil_prefix, hd⟩
    · right
      intro read hread
      rw [List.prefix_nil.1 hread]
      simpa using hd
  | cons line lines ih =>
    by_cases hd : depth ≤ 0
    · exact .inl ⟨[], List.nil_prefix, hd⟩
    · rw [Int.not_le] at hd
      rcases ih (depth + parenDepth line) with ⟨read, hread, hcloses⟩ | hopened
      · exact .inl ⟨line :: read, List.cons_prefix_cons.2 ⟨rfl, hread⟩, hd, hcloses⟩
      · right
        intro read hread
        rcases List.prefix_cons_iff.1 hread with rfl | ⟨more, rfl, hmore⟩
        · simpa using hd
        · have := hopened more hmore
          rw [List.flatten_cons, parenDepth_append]
          omega

theorem ClosesAtLast.depth_le {depth : Int} {read : List Text} (h : ClosesAtLast depth read) :
    depth + parenDepth read.flatten ≤ 0 := by
  induction read generalizing depth with
  | nil =>
    have hd : depth ≤ 0 := h
    simpa using hd
  | cons line lines ih =>
    have := ih h.2
    rw [List.flatten_cons, parenDepth_append]
    omega

theorem ClosesAtLast.opened {depth : Int} {read : List Text} (h : ClosesAtLast depth read) {k : Nat}
    (hk : k < read.length) : 0 < depth + parenDepth (read.take k).flatten := by
  induction read generalizing depth k with
  | nil => exact absurd hk (Nat.not_lt_zero k)
  | cons line lines ih =>
    obtain ⟨hopen, hlines⟩ := h
    cases k with
    | zero => simpa using hopen
    | succ k =>
      have := ih hlines (Nat.lt_of_succ_lt_succ hk)
      rw [List.take_succ_cons, List.flatten_cons, parenDepth_append]
      omega

/-- A balancer reads on up to the line where no parenthesis is open. -/
theorem balance_append {b : Balancer} (hb : b.seenOpen = true) {following : List Text}
    (h : ClosesAtLast b.depth following) (fed : Nat) (rest : List Text) :
    balance b fed (following ++ rest) = (following.foldl Balancer.feed b, fed + following.length) ∧
      (following.foldl Balancer.feed b).isDone = true := by
  induction following generalizing b fed with
  | nil =>
    have hclosed : b.depth ≤ 0 := h
    have hdone : b.isDone = true := by
      rw [← Bool.not_eq_false, Balancer.isDone_eq_false_iff hb]
      omega
    exact ⟨balance_of_isDone hdone fed rest, hdone⟩
  | cons line lines ih =>
    obtain ⟨hopened, hlines⟩ := h
    have hopen : b.isDone = false := (Balancer.isDone_eq_false_iff hb).2 hopened
    rw [← Balancer.depth_feed] at hlines
    obtain ⟨hbalance, hdone⟩ := ih (Balancer.seenOpen_feed hb line) hlines (fed + 1)
    have hfed : fed + 1 + lines.length = fed + (lines.length + 1) := by omega
    rw [hfed] at hbalance
    refine ⟨?_, hdone⟩
    rw [List.cons_append, balance, hopen, List.foldl_cons, List.length_cons]
    exact hbalance

/-- **A call takes the lines up to the one that closes it**, whatever follows. -/
theorem collectCall_append {t : Text} {following : List Text}
    (h : ClosesAtLast (parenDepth ('(' :: t)) following) (rest : List Text) :
    collectCall ('(' :: t) (following ++ rest) =
      ⟨join [' '] ((('(' :: t) :: following).map trim), following.length, true⟩ := by
  rw [← Balancer.depth_feed_empty] at h
  obtain ⟨hbalance, hdone⟩ := balance_append (Balancer.seenOpen_feed_cons {} t) h 0 rest
  rw [collectCall, hbalance, Nat.zero_add]
  simp only [hdone, Balancer.text, Balancer.chunks_foldl_feed, Balancer.chunks_feed,
    List.reverse_singleton, List.singleton_append, List.map_cons]

/-- **A call that closes on its first line is that line.** -/
theorem collectCall_nested {p q : Char → Prop} {t u : Text} (ht : Nested p t) (hu : Nested q u)
    (htrim : trim ('(' :: (t ++ ')' :: u)) = '(' :: (t ++ ')' :: u)) (following : List Text) :
    collectCall ('(' :: (t ++ ')' :: u)) following = ⟨'(' :: (t ++ ')' :: u), 0, true⟩ := by
  have hclosed : parenDepth ('(' :: (t ++ ')' :: u)) = 0 := by
    have hnested := (ParensNested.of_nested ht).parenthesised.append (.of_nested hu)
    rw [List.cons_append, List.append_assoc, List.singleton_append] at hnested
    exact hnested.closed
  have hcloses : ClosesAtLast (parenDepth ('(' :: (t ++ ')' :: u))) [] := Int.le_of_eq hclosed
  have hcall := collectCall_append hcloses following
  rwa [List.nil_append, List.map_singleton, htrim, join_singleton] at hcall

/-- A base list that closes on the line of its header takes no other line. -/
theorem baseLines_nested {p q : Char → Prop} {s t u : Text} (hs : '(' ∉ s) (ht : Nested p t)
    (hu : Nested q u) (htrim : trim ('(' :: (t ++ ')' :: u)) = '(' :: (t ++ ')' :: u))
    (following : List Text) : baseLines (s ++ '(' :: (t ++ ')' :: u)) following = 0 := by
  rw [baseLines, cut?_char hs]
  simp only [collectCall_nested ht hu htrim, ↓reduceIte]

theorem baseLines_of_not_mem {line : Text} (h : '(' ∉ line) (following : List Text) :
    baseLines line following = 0 := by
  rw [baseLines, cut?_char_eq_none h]

/-- The signature in a text where the first parenthesis is matched. -/
theorem Signature.ofText_parenthesised {t : Text} (ht : ParensNested t) (u : Text) :
    Signature.ofText ('(' :: (t ++ ')' :: u)) = ⟨arguments t, returnAnnotation? u⟩ := by
  have hdrop : ('(' :: (t ++ ')' :: u)).drop ('(' :: (t ++ [')'])).length = u := by
    rw [show '(' :: (t ++ ')' :: u) = '(' :: (t ++ [')']) ++ u by simp, List.drop_left]
  simp only [ofText, captureCall_parensNested ht, callArguments_parenthesised, hdrop]

/-- **A signature on one line**: its parameters are what stands between the parentheses, and the
following lines are not read. -/
theorem readSignature_commaList {q : Char → Prop} {args : List Text} (h : ∀ a ∈ args, IsArgument a)
    {u : Text} (hu : Nested q u)
    (htrim : trim ('(' :: (commaList args ++ ')' :: u)) = '(' :: (commaList args ++ ')' :: u))
    (following : List Text) :
    readSignature ('(' :: (commaList args ++ ')' :: u)) following =
      (⟨args, returnAnnotation? u⟩, 0) := by
  have hargs : Nested (fun _ => True) (commaList args) :=
    nested_commaList fun a ha => (h a ha).nested.mono fun _ _ => trivial
  rw [readSignature, collectCall_nested hargs hu htrim]
  simp only [↓reduceIte, Signature.ofText_parenthesised (.of_nested hargs), arguments_commaList h]

/-! ## Attributes on one line -/

/-- The type of a column is its first argument. -/
theorem columnType_commaList {type : Text} (hne : type ≠ []) (ht : trim type = type)
    (hc : ∀ c ∈ type, c ≠ ',' ∧ c ≠ '(' ∧ c ≠ ')') (args : List Text) :
    columnType ('(' :: (commaList (type :: args) ++ [')'])) = type := by
  -- after the type comes the comma before the next argument, or the closing parenthesis
  obtain ⟨c, rest, hrest, hstop⟩ : ∃ c rest, commaList (type :: args) ++ [')'] = type ++ c :: rest ∧
      (!(c = ',' || c = '(' || c = ')')) = false := by
    cases args with
    | nil => exact ⟨')', [], by simp [commaList], rfl⟩
    | cons a args =>
      exact ⟨',', ' ' :: (commaList (a :: args) ++ [')']), by simp [commaList_cons_cons], rfl⟩
  have htake : (type ++ c :: rest).takeWhile (fun c => !(c = ',' || c = '(' || c = ')')) =
      type := by
    rw [List.takeWhile_append_of_pos, List.takeWhile_cons_of_neg (by simp [hstop]), List.append_nil]
    intro d hd
    simpa [and_assoc] using hc d hd
  rw [columnType, List.tail_cons, hrest, htake, ht, if_neg hne]

section Attribute

variable {s name : Text} (hs : ∀ c ∈ s, isBlank c = true) (hs₀ : s ≠ []) (hne : name ≠ [])
  (hw : ∀ c ∈ name, isWord c = true)
include hs hs₀ hne hw

theorem readAttribute_column {type : Text} {args : List Text} (hne' : type ≠ [])
    (ht : trim type = type) (hc : ∀ c ∈ type, c ≠ ',' ∧ c ≠ '(' ∧ c ≠ ')')
    (h : ∀ a ∈ type :: args, Nested (fun _ => True) a) (following : List Text) :
    readAttribute (s ++ (name ++ (" = Column(".toList ++ (commaList (type :: args) ++ [')']))))
        following =
      (some (name ++ ": ".toList ++ type), 0) := by
  have htrim := trim_cons_append_singleton (show isBlank '(' = false by decide)
    (show isBlank ')' = false by decide) (commaList (type :: args))
  rw [readAttribute, columnAttribute?_column hs hs₀ hne hw]
  simp only [collectCall_nested (nested_commaList h) (.nil fun _ => True) htrim,
    columnType_commaList hne' ht hc]

omit hs₀ hne in
/-- The text `def ` does not stand in an attribute whose type does not contain it. -/
theorem not_contains_def {t : Text} (ht : ¬ "def ".toList <:+: t) :
    contains "def ".toList (s ++ (name ++ ':' :: ' ' :: t)) = false := by
  rw [← Bool.not_eq_true, contains_eq_true_iff, ← List.append_assoc,
    infix_append_cons_iff (show ':' ∉ "def ".toList by decide)]
  rintro (h | h)
  · have hd : 'd' ∉ s := fun hd => absurd (hs _ hd) (by decide)
    have hspace : ' ' ∈ name := (infix_of_infix_append hd h).subset (by decide)
    exact absurd (hw _ hspace) (by decide)
  · exact ht (@infix_of_infix_append 'd' _ [' '] t (by decide) h)

theorem readAttribute_typed {type : Text} (ht : trim type = type) (he : '=' ∉ type)
    (hd : ¬ "def ".toList <:+: type) (following : List Text) :
    readAttribute (s ++ (name ++ ':' :: ' ' :: type)) following =
      (some (name ++ ": ".toList ++ type), 0) := by
  have he' : '=' ∉ ' ' :: type := by simpa using he
  rw [readAttribute, columnAttribute?_typed hs hs₀ hne hw, typedAttribute?_typed hs hs₀ hne hw he']
  simp only [not_contains_def hs hw hd, Bool.false_eq_true, ↓reduceIte,
    trim_cons_blank (show isBlank ' ' = true by decide), ht]

end Attribute

/-! ## Lines taken

No reader takes more lines than there are. -/

theorem balance_le (b : Balancer) (fed : Nat) (following : List Text) :
    (balance b fed following).2 ≤ fed + following.length := by
  fun_induction balance b fed following with
  | case1 => exact Nat.le_refl _
  | case2 b fed line lines => exact Nat.le_add_right _ _
  | case3 b fed line lines _ ih =>
    rw [List.length_cons]
    omega

theorem collectCall_le (first : Text) (following : List Text) :
    (collectCall first following).consumed ≤ following.length := by
  simpa [collectCall] using balance_le (({} : Balancer).feed first) 0 following

theorem baseLines_le (line : Text) (following : List Text) :
    baseLines line following ≤ following.length := by
  unfold baseLines
  split
  · exact Nat.zero_le _
  · next rest _ =>
    dsimp only
    split
    · exact collectCall_le ('(' :: rest) following
    · exact Nat.zero_le _

theorem readSignature_le (call : Text) (following : List Text) :
    (readSignature call following).2 ≤ following.length := by
  unfold readSignature
  dsimp only
  split
  · exact collectCall_le call following
  · exact Nat.zero_le _

theorem readAttribute_le (line : Text) (following : List Text) :
    (readAttribute line following).2 ≤ following.length := by
  unfold readAttribute
  split
  · next call _ => exact collectCall_le call following
  · split
    · split <;> exact Nat.zero_le _
    · exact Nat.zero_le _

theorem length_importChunks_le (done following : List Text) :
    (importChunks done following).length ≤ done.length + following.length := by
  fun_induction importChunks done following with
  | case1 done => simp
  | case2 done line lines chunk => simp
  | case3 done line lines chunk _ ih =>
    rw [List.length_cons] at ih ⊢
    omega

theorem readImport_le (module? : Option Text) (names : Text) (n : Nat) (following : List Text) :
    (readImport module? names n following).2 ≤ following.length := by
  unfold readImport
  dsimp only
  split
  · simpa using length_importChunks_le [] following
  · exact Nat.zero_le _

end CodeIndex.Indented
