import CodeIndex.Proofs.Script.Preorder
import CodeIndex.Proofs.Text.Cut
import CodeIndex.Proofs.Utf8
import Mathlib.Order.CompletePartialOrder
import Mathlib.Order.Interval.Set.Disjoint

/-!
# Documentation comments of siblings

What stands between a node and the nearest sibling before it, comments and decorators aside, is read
for the documentation comment of the node alone: for two siblings the bytes are different ones, and
they are none of another sibling (`docComment_not_shared`). All of it follows from where these bytes
start: not before the parent, not after the node (`start_le_triviaStart`, `triviaStart_le_start`),
and behind every sibling before the node that is no comment or decorator (`stop_le_triviaStart`).

* `Cursor.trivia` are the bytes that are searched for the documentation comment of a node.
* `Cursor.TakesBlock` tells which of them are the comment that is read.
-/

namespace CodeIndex.Script

open Text

/-! ## The bytes before a node -/

/-- The children of a node have ranges of bytes inside of that of the node, one after the other. -/
structure Node.HoldsInOrder (n : Node) : Prop where
  inside : ∀ c ∈ n.children, n.start ≤ c.start ∧ c.start ≤ c.stop ∧ c.stop ≤ n.stop
  ordered : n.children.Pairwise fun c d => c.stop ≤ d.start

/-- The bytes of a node. -/
def Node.bytes (n : Node) : Set Nat := Set.Ico n.start n.stop

namespace Cursor

/-- The bytes before a node that are searched for its documentation comment. -/
def trivia (c : Cursor) : Set Nat := Set.Ico c.triviaStart c.node.start

section Siblings

variable {p c d : Cursor} {i j : Nat} (hp : p.node.HoldsInOrder) (hc : p.children[i]? = some c)
include hc

/-- A child stands between the siblings before it and those after it. -/
theorem exists_children_eq :
    ∃ after, p.node.children = p.node.children.take i ++ c.node :: after := by
  obtain ⟨n, hn, rfl⟩ := getElem?_children_eq_some_iff.1 hc
  obtain ⟨hi, rfl⟩ := List.getElem?_eq_some_iff.1 hn
  refine ⟨p.node.children.drop (i + 1), ?_⟩
  rw [← List.drop_eq_getElem_cons hi, List.take_append_drop]

/-- The bytes before a node start where the nearest sibling that is no comment or decorator ends, or
where the parent starts. -/
theorem triviaStart_cases :
    (∃ earlier e later, p.node.children.take i = earlier ++ e :: later ∧
      (∀ n ∈ later, n.isTrivia = true) ∧ c.triviaStart = e.stop) ∨
    ((∀ n ∈ p.node.children.take i, n.isTrivia = true) ∧ c.triviaStart = p.node.start) := by
  obtain ⟨n, hn, rfl⟩ := getElem?_children_eq_some_iff.1 hc
  simp only [triviaStart, before, parent?]
  cases hfind : (p.node.children.take i).reverse.find? (!·.isTrivia) with
  | some e =>
    obtain ⟨-, nearer, farther, hsplit, hnearer⟩ := List.find?_eq_some_iff_append.1 hfind
    refine .inl ⟨farther.reverse, e, nearer.reverse, ?_, fun n hn => ?_, rfl⟩
    · rw [← List.reverse_reverse (p.node.children.take i), hsplit]
      simp
    · simpa using hnearer n (List.mem_reverse.1 hn)
  | none =>
    refine .inr ⟨fun n hn => ?_, rfl⟩
    simpa using List.find?_eq_none.1 hfind n (List.mem_reverse.2 hn)

include hp

theorem ordered_of_children :
    (∀ n ∈ p.node.children.take i, n.stop ≤ c.node.start) ∧
      (p.node.children.take i).Pairwise fun n m => n.stop ≤ m.start := by
  obtain ⟨after, hchildren⟩ := exists_children_eq hc
  have hordered := hp.ordered
  rw [hchildren, List.pairwise_append] at hordered
  exact ⟨fun n hn => hordered.2.2 n hn c.node (by simp), hordered.1⟩

theorem start_le_triviaStart : p.node.start ≤ c.triviaStart := by
  rcases triviaStart_cases hc with ⟨earlier, e, later, hsplit, -, hstart⟩ | ⟨-, hstart⟩
  · have hmem : e ∈ p.node.children := List.mem_of_mem_take (i := i) (by rw [hsplit]; simp)
    have := hp.inside e hmem
    omega
  · omega

theorem triviaStart_le_start : c.triviaStart ≤ c.node.start := by
  obtain ⟨hbefore, -⟩ := ordered_of_children hp hc
  rcases triviaStart_cases hc with ⟨earlier, e, later, hsplit, -, hstart⟩ | ⟨-, hstart⟩
  · rw [hstart]
    exact hbefore e (by rw [hsplit]; simp)
  · obtain ⟨after, hchildren⟩ := exists_children_eq hc
    have := hp.inside c.node (by rw [hchildren]; simp)
    omega

/-- **The bytes before a node are behind every sibling before it** that is no comment or decorator:
the nearest ends where they start, and the others end before the nearest starts. -/
theorem stop_le_triviaStart {n : Node} (hn : n ∈ p.node.children.take i)
    (hcode : n.isTrivia = false) : n.stop ≤ c.triviaStart := by
  rcases triviaStart_cases hc with ⟨earlier, e, later, hsplit, hlater, hstart⟩ | ⟨hall, -⟩
  · have he := hp.inside e (List.mem_of_mem_take (i := i) (by rw [hsplit]; simp))
    obtain ⟨-, hordered⟩ := ordered_of_children hp hc
    rw [hsplit, List.pairwise_append] at hordered
    rw [hsplit, List.mem_append, List.mem_cons] at hn
    rcases hn with hn | rfl | hn
    · have := hordered.2.2 n hn e (by simp)
      omega
    · omega
    · exact absurd (hlater n hn) (by simp [hcode])
  · exact absurd (hall n hn) (by simp [hcode])

/-- **The bytes before a node are none of a sibling** that is no comment or decorator. -/
theorem disjoint_trivia_bytes {n : Node} (hn : n ∈ p.node.children) (hcode : n.isTrivia = false) :
    Disjoint c.trivia n.bytes := by
  obtain ⟨after, hchildren⟩ := exists_children_eq hc
  have hcases : n.stop ≤ c.triviaStart ∨ c.node.start ≤ n.start := by
    rw [hchildren, List.mem_append, List.mem_cons] at hn
    rcases hn with hn | rfl | hn
    · exact .inl (stop_le_triviaStart hp hc hn hcode)
    · exact .inr (Nat.le_refl _)
    · have hordered := hp.ordered
      rw [hchildren, List.pairwise_append, List.pairwise_cons] at hordered
      have hafter := hordered.2.1.1 n hn
      have hinside := hp.inside c.node (by rw [hchildren]; simp)
      exact .inr (by omega)
  refine Set.disjoint_left.2 fun k hk hk' => ?_
  simp only [trivia, Node.bytes, Set.mem_Ico] at hk hk'
  omega

/-- The bytes before two siblings, neither a comment nor a decorator, are different ones. -/
theorem disjoint_trivia_of_lt (hd : p.children[j]? = some d) (hij : i < j)
    (hcode : c.node.isTrivia = false) : Disjoint c.trivia d.trivia := by
  obtain ⟨after, hchildren⟩ := exists_children_eq hc
  have hinside := hp.inside c.node (by rw [hchildren]; simp)
  have hmem : c.node ∈ p.node.children.take j := by
    obtain ⟨n, hn, rfl⟩ := getElem?_children_eq_some_iff.1 hc
    exact List.mem_iff_getElem?.2 ⟨i, by rwa [List.getElem?_take_of_lt hij]⟩
  have hstop := stop_le_triviaStart hp hd hmem hcode
  refine Set.disjoint_left.2 fun k hk hk' => ?_
  simp only [trivia, Set.mem_Ico] at hk hk'
  omega

end Siblings

/-! ## The comment that is read -/

end Cursor

/-- The last of the documentation comments in a text, and what stands around it. -/
theorem exists_of_getLast?_docBlocks {t body : Text} (h : (docBlocks t).getLast? = some body) :
    ∃ before after, t = before ++ (("/**".toList ++ body ++ "*/".toList) ++ after) ∧
      docBlocks after = [] := by
  fun_induction docBlocks t with
  | case1 => simp at h
  | case2 => simp at h
  | case3 t before rest hopen body' after hclose ih =>
    have ht : t = before ++ (("/**".toList ++ body' ++ "*/".toList) ++ after) := by
      rw [eq_of_cut? hopen, eq_of_cut? hclose]
      simp
    by_cases hnil : docBlocks after = []
    · rw [hnil, List.getLast?_singleton] at h
      obtain rfl := Option.some.inj h
      exact ⟨before, after, ht, hnil⟩
    · rw [List.getLast?_cons_of_ne_nil hnil] at h
      obtain ⟨before', after', rfl, hafter'⟩ := ih h
      exact ⟨before ++ (("/**".toList ++ body' ++ "*/".toList) ++ before'), after',
        by rw [ht]; simp, hafter'⟩

/-- **Where the text of a range of bytes is cut, the range can be cut.** -/
theorem Source.exists_text_append {s : Source} {start stop : Nat} {a b : Text} (hle : start ≤ stop)
    (h : s.text start stop = a ++ b) :
    ∃ mid, start ≤ mid ∧ mid ≤ stop ∧ s.text start mid = a ∧ s.text mid stop = b := by
  obtain ⟨x, y, hxy, rfl, rfl⟩ := Utf8.exists_append_of_decodeLenient h
  rw [Array.toList_extract, List.extract_eq_take_drop] at hxy
  have hlength : x.length ≤ stop - start := by
    have := congrArg List.length hxy
    rw [List.length_take, List.length_append] at this
    omega
  have hx : x = (s.toList.drop start).take x.length := by
    rw [← Nat.min_eq_left hlength, ← List.take_take, hxy, List.take_left]
  have hy : y = (s.toList.drop (start + x.length)).take (stop - (start + x.length)) := by
    rw [← List.drop_drop, ← Nat.sub_sub, ← List.drop_take, hxy, List.drop_left]
  refine ⟨start + x.length, by omega, by omega, ?_, ?_⟩
  · rw [Source.text, Array.toList_extract, List.extract_eq_take_drop, Nat.add_sub_cancel_left, ← hx]
  · rw [Source.text, Array.toList_extract, List.extract_eq_take_drop, ← hy]

theorem Source.text_self (s : Source) (start : Nat) : s.text start start = [] := by
  rw [Source.text, Array.toList_extract, List.extract_eq_take_drop, Nat.sub_self, List.take_zero,
    Utf8.decodeLenient_nil]

namespace Cursor

/-- The bytes from `start` to `stop` are the documentation comment that is read for a node, and
`body` is the text in it: they are the last such comment among the bytes before the node. -/
structure TakesBlock (s : Source) (c : Cursor) (start stop : Nat) (body : Text) : Prop where
  within : Set.Ico start stop ⊆ c.trivia
  nonempty : start < stop
  text : s.text start stop = "/**".toList ++ body ++ "*/".toList
  whole : s.text c.triviaStart c.node.start =
    s.text c.triviaStart start ++ (s.text start stop ++ s.text stop c.node.start)
  last : docBlocks (s.text stop c.node.start) = []
  taken : (docBlocks (s.text c.triviaStart c.node.start)).getLast? = some body

/-- **A description is read from a documentation comment among the bytes before the node.** -/
theorem exists_takesBlock {s : Source} {c : Cursor} {description : Text}
    (hle : c.triviaStart ≤ c.node.start) (h : c.docComment s = some description) :
    ∃ start stop body, c.TakesBlock s start stop body ∧
      cleanDocComment body = some description := by
  obtain ⟨body, htaken, hclean⟩ := Option.bind_eq_some_iff.1 h
  obtain ⟨before, after, htext, hlast⟩ := exists_of_getLast?_docBlocks htaken
  obtain ⟨start, hstart, hle', rfl, hrest⟩ := Source.exists_text_append hle htext
  obtain ⟨stop, hstop, hle'', hblock, rfl⟩ := Source.exists_text_append hle' hrest
  refine ⟨start, stop, body, ⟨?_, ?_, hblock, ?_, hlast, htaken⟩, hclean⟩
  · exact Set.Ico_subset_Ico hstart hle''
  · refine Nat.lt_of_le_of_ne hstop ?_
    rintro rfl
    rw [Source.text_self] at hblock
    simp at hblock
  · rw [htext, hblock]

/-- **No documentation comment is read for two siblings.** -/
theorem docComment_not_shared (s : Source) {p c d : Cursor} {i j : Nat} (hp : p.node.HoldsInOrder)
    (hc : p.children[i]? = some c) (hd : p.children[j]? = some d) (hij : i ≠ j)
    (hcode : c.node.isTrivia = false) (hcode' : d.node.isTrivia = false) :
    (p.node.start ≤ c.triviaStart ∧ c.triviaStart ≤ c.node.start ∧ c.node.start ≤ p.node.stop) ∧
    Disjoint c.trivia d.trivia ∧
    (∀ n ∈ p.node.children, n.isTrivia = false → Disjoint c.trivia n.bytes) ∧
    (∀ description, c.docComment s = some description →
      ∃ start stop body, c.TakesBlock s start stop body ∧ cleanDocComment body = some description) ∧
    ∀ start stop body, c.TakesBlock s start stop body →
      (∀ start' stop' body', d.TakesBlock s start' stop' body' →
        Disjoint (Set.Ico start stop) (Set.Ico start' stop')) ∧
      ∀ n ∈ p.node.children, n.isTrivia = false → Disjoint (Set.Ico start stop) n.bytes := by
  have hle := triviaStart_le_start hp hc
  have hdisjoint : Disjoint c.trivia d.trivia := by
    rcases Nat.lt_or_gt_of_ne hij with hlt | hgt
    · exact disjoint_trivia_of_lt hp hc hd hlt hcode
    · exact (disjoint_trivia_of_lt hp hd hc hgt hcode').symm
  have hsiblings {n : Node} (hn : n ∈ p.node.children) (hncode : n.isTrivia = false) :
      Disjoint c.trivia n.bytes := disjoint_trivia_bytes hp hc hn hncode
  refine ⟨⟨start_le_triviaStart hp hc, hle, ?_⟩, hdisjoint, fun n hn hncode => hsiblings hn hncode,
    fun description h => exists_takesBlock hle h, fun start stop body hblock => ⟨?_, ?_⟩⟩
  · obtain ⟨after, hchildren⟩ := exists_children_eq hc
    have hinside := hp.inside c.node (by rw [hchildren]; simp)
    omega
  · intro start' stop' body' hblock'
    exact hdisjoint.mono hblock.within hblock'.within
  · intro n hn hncode
    exact (hsiblings hn hncode).mono_left hblock.within

/-- Two functions with a documentation comment each, the second with a decorator too. -/
def describedSource : Source := (Utf8.encode "/** A. */f;/** B. */@d g;".toList).toArray

/-- The syntax tree of the two functions. -/
def describedProgram : Cursor where
  node := .mk "program".toList 0 25 0 true none
    [.mk "comment".toList 0 9 0 true none [], .mk "function_declaration".toList 9 11 0 true none [],
     .mk "comment".toList 11 20 0 true none [], .mk "decorator".toList 20 22 0 true none [],
     .mk "function_declaration".toList 23 25 0 true none []]
  place := .root

theorem docComment_not_shared_describedProgram :
    ∃ c d, describedProgram.children[1]? = some c ∧ describedProgram.children[4]? = some d ∧
      c.docComment describedSource = some "A.".toList ∧
      d.docComment describedSource = some "B.".toList ∧
      ∃ start stop body start' stop' body', c.TakesBlock describedSource start stop body ∧
        d.TakesBlock describedSource start' stop' body' ∧
        Disjoint (Set.Ico start stop) (Set.Ico start' stop') := by
  have hordered : describedProgram.node.HoldsInOrder := ⟨by decide, by decide⟩
  obtain ⟨c, hc⟩ : ∃ c, describedProgram.children[1]? = some c := ⟨_, rfl⟩
  obtain ⟨d, hd⟩ : ∃ d, describedProgram.children[4]? = some d := ⟨_, rfl⟩
  have hA : c.docComment describedSource = some "A.".toList := by
    obtain rfl := Option.some.inj hc
    decide +kernel
  have hB : d.docComment describedSource = some "B.".toList := by
    obtain rfl := Option.some.inj hd
    decide +kernel
  have hcode : c.node.isTrivia = false ∧ d.node.isTrivia = false := by
    obtain rfl := Option.some.inj hc
    obtain rfl := Option.some.inj hd
    decide
  obtain ⟨-, -, -, hfirst, hapart⟩ :=
    docComment_not_shared describedSource hordered hc hd (by decide) hcode.1 hcode.2
  obtain ⟨-, -, -, hsecond, -⟩ :=
    docComment_not_shared describedSource hordered hd hc (by decide) hcode.2 hcode.1
  obtain ⟨start, stop, body, hblock, -⟩ := hfirst _ hA
  obtain ⟨start', stop', body', hblock', -⟩ := hsecond _ hB
  exact ⟨c, d, hc, hd, hA, hB, start, stop, body, start', stop', body', hblock, hblock',
    (hapart _ _ _ hblock).1 _ _ _ hblock'⟩

end Cursor

end CodeIndex.Script
