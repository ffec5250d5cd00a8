import CodeIndex.Proofs.ArgumentText
import CodeIndex.Proofs.Schema.Entity

/-!
# Look-ahead and capture

A look-ahead collects whole lines and tests the parentheses at line ends only, where more of them
may be closed than opened. A capture tests them at every closing parenthesis. They agree
nevertheless: the look-ahead stops at the first line end behind which no parenthesis is open
(`ClosesFirst`), and what it has collected by then contains the match of the first parenthesis, so
that the capture ends there (`upToMatch_of_closed`). The body of a class is captured by the same law
from its opening brace (`classBody?_eq_some_iff_isCapture`). `collectCall_agrees` puts these
together.
-/

namespace CodeIndex

open Text

namespace Indented

/-! ## Where a look-ahead stops -/

/-- Of the parentheses in a first chunk and in the lines from `index` up to `j`, no more are opened
than closed. -/
def ClosedBy (first : Text) (lines : List Text) (index j : Nat) : Prop :=
  (first ++ ((lines.take j).drop index).flatten).count '(' ≤
    (first ++ ((lines.take j).drop index).flatten).count ')'

/-- The first position from `index` on at which the parentheses are closed. -/
structure ClosesFirst (first : Text) (lines : List Text) (index j : Nat) : Prop where
  closed : ClosedBy first lines index j
  least : ∀ k, index ≤ k → k < j → ¬ ClosedBy first lines index k

variable {t first : Text} {lines : List Text} {index j : Nat}

theorem closedBy_iff : ClosedBy first lines index j ↔
    parenDepth first + parenDepth ((lines.drop index).take (j - index)).flatten ≤ 0 := by
  rw [← parenDepth_append, ClosedBy, List.drop_take, parenDepth]
  omega

/-- **A closed call ends at the first line end where its parentheses are closed.** -/
theorem closesFirst_of_closed (h : (collectCall ('(' :: t) (lines.drop index)).closed = true) :
    ClosesFirst ('(' :: t) lines index
      (index + (collectCall ('(' :: t) (lines.drop index)).consumed) := by
  obtain ⟨read, ⟨rest, hrest⟩, hcloses⟩ :=
    exists_closesAtLast_of_not_unclosed (closed_collectCall_iff.1 h)
  have hconsumed : (collectCall ('(' :: t) (lines.drop index)).consumed = read.length := by
    rw [← hrest, collectCall_append hcloses]
  rw [hconsumed]
  constructor
  · rw [closedBy_iff, Nat.add_sub_cancel_left, ← hrest, List.take_left]
    exact hcloses.depth_le
  · intro k hk hlt
    have hshort : k - index < read.length := by omega
    rw [closedBy_iff, ← hrest, List.take_append_of_le_length hshort.le]
    have := hcloses.opened hshort
    omega

/-- **A call that is not closed takes all lines, and its parentheses are closed at no line end.** -/
theorem not_closedBy_of_not_closed (hindex : index ≤ lines.length)
    (h : (collectCall ('(' :: t) (lines.drop index)).closed = false) :
    index + (collectCall ('(' :: t) (lines.drop index)).consumed = lines.length ∧
      ∀ k, ¬ ClosedBy ('(' :: t) lines index k := by
  rw [closed_collectCall_eq_false_iff] at h
  constructor
  · rw [consumed_collectCall_of_unclosed h, List.length_drop]
    omega
  · intro k
    have hopen := h _ (List.take_prefix (k - index) (lines.drop index))
    rw [parenDepth_append] at hopen
    rw [closedBy_iff]
    omega

/-- **The text of a closed call contains the match of its first parenthesis**, and is captured up to
it. -/
theorem upToMatch_of_closed {following : List Text}
    (h : (collectCall ('(' :: t) following).closed = true) :
    UpToMatch '(' ')' (collectCall ('(' :: t) following).text
      (captureCall (collectCall ('(' :: t) following).text) := by
  obtain ⟨u, htext, hdepth⟩ := exists_text_of_not_unclosed (closed_collectCall_iff.1 h)
  rw [htext]
  exact upToMatch_captureBalanced (by decide) hdepth

end Indented

namespace Schema

/-- The brace at which a body starts is the first character from there on. -/
theorem StartsBody.exists_drop {content name : Text} {opening : Nat}
    (h : StartsBody content name opening) : ∃ rest, content.drop opening = '\x7b' :: rest := by
  obtain ⟨mention, -, hopens⟩ := h
  obtain ⟨hlt, hbrace⟩ := List.getElem?_eq_some_iff.1 hopens.brace
  exact ⟨content.drop (opening + 1), by rw [List.drop_eq_getElem_cons hlt, hbrace]⟩

/-- **The body of a class is captured from its opening brace.** -/
theorem classBody?_eq_some_iff_isCapture {content name body : Text} :
    classBody? content name = some body ↔
      ∃ opening, StartsBody content name opening ∧
        IsCapture '\x7b' '\x7d' (content.drop opening) body := by
  rw [classBody?_eq_some_iff]
  refine exists_congr fun opening => and_congr_right fun hstarts => ?_
  obtain ⟨rest, hrest⟩ := hstarts.exists_drop
  rw [bodyAt, hrest, isCapture_iff (by decide)]

end Schema

open Indented

/-- **Look-ahead and capture agree.** A call whose first chunk starts with a parenthesis is
collected up to the first line end where its parentheses are closed, or to the end of the lines if
there is none. The text of a closed call is captured up to the match of its first parenthesis, which
is the only part of it with balanced parentheses of which every shorter part opens more than it
closes. What starts with a parenthesis is captured up to its match, or whole if it has none, and so
is the body of a class from its brace on. -/
theorem collectCall_agrees (t : Text) {lines : List Text} {index : Nat}
    (hindex : index ≤ lines.length) :
    (∃ call j, collectCall ('(' :: t) (lines.drop index) = call ∧ j = index + call.consumed ∧
      index ≤ j ∧ j ≤ lines.length ∧
      (call.closed = true ∧ ClosesFirst ('(' :: t) lines index j ∨
        call.closed = false ∧ j = lines.length ∧
          ∀ k, index ≤ k → k ≤ lines.length → ¬ ClosedBy ('(' :: t) lines index k) ∧
      (call.closed = true → UpToMatch '(' ')' call.text (captureCall call.text) ∧
        ∀ p, UpToMatch '(' ')' call.text p → p = captureCall call.text)) ∧
      (∀ u, IsCapture '(' ')' ('(' :: u) (captureCall ('(' :: u))) ∧
      ∀ content name body, Schema.classBody? content name = some body ↔
        ∃ opening, Schema.StartsBody content name opening ∧
          IsCapture '\x7b' '\x7d' (content.drop opening) body := by
  have hle := collectCall_le ('(' :: t) (lines.drop index)
  rw [List.length_drop] at hle
  refine ⟨⟨_, _, rfl, rfl, Nat.le_add_right _ _, by omega, ?_, fun hclosed => ?_⟩,
    fun u => isCapture_captureBalanced (by decide) u,
    fun content name body => Schema.classBody?_eq_some_iff_isCapture⟩
  · cases hclosed : (collectCall ('(' :: t) (lines.drop index)).closed with
    | true => exact .inl ⟨rfl, closesFirst_of_closed hclosed⟩
    | false =>
      obtain ⟨hall, hnone⟩ := not_closedBy_of_not_closed hindex hclosed
      exact .inr ⟨rfl, hall, fun k _ _ => hnone k⟩
  · have hmatch := upToMatch_of_closed hclosed
    exact ⟨hmatch, fun p hp => hp.unique hmatch⟩

/-- A signature that runs over three lines, with a parenthesis too many on the last of them. -/
def wrappedSignature : List Text := ["def f(a=(1,", "2),", "b)):", "pass"].map String.toList

theorem collectCall_agrees_wrappedSignature :
    1 ≤ wrappedSignature.length ∧
      ∃ call, collectCall "(a=(1,".toList (wrappedSignature.drop 1) = call ∧ call.closed = true ∧
        ClosesFirst "(a=(1,".toList wrappedSignature 1 3 ∧
        call.text = "(a=(1, 2), b)):".toList ∧ captureCall call.text = "(a=(1, 2), b)".toList ∧
        UpToMatch '(' ')' call.text (captureCall call.text) := by
  have hindex : 1 ≤ wrappedSignature.length := by decide
  obtain ⟨⟨call, j, hcall, hj, -, -, hcloses, hmatch⟩, -⟩ :=
    collectCall_agrees "a=(1,".toList hindex
  have hread : collectCall "(a=(1,".toList (wrappedSignature.drop 1) =
      ⟨"(a=(1, 2), b)):".toList, 2, true⟩ := by decide
  obtain rfl : call = ⟨"(a=(1, 2), b)):".toList, 2, true⟩ := hcall.symm.trans hread
  obtain rfl : j = 3 := hj
  refine ⟨hindex, _, hread, rfl, ?_, rfl, by decide, (hmatch rfl).1⟩
  rcases hcloses with ⟨-, hfirst⟩ | ⟨hopen, -⟩
  · exact hfirst
  · exact absurd hopen (by decide)

end CodeIndex
