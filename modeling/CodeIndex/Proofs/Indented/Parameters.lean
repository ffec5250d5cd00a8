import CodeIndex.Proofs.Indented.Headings
import CodeIndex.Proofs.Text.TopLevel
import CodeIndex.Report.Markdown

/-!
# Parameters that read back

The parameters of a function are the arguments in some text, and those of a method some of them. No
step of the scan records any others (`HasArgumentParams.step`), whatever text the parentheses hold.
The signature in the Markdown document shows them in parentheses with commas between them, and
arguments that are joined by commas read back; so the parameters are what is read between these
parentheses (`arguments_signature`).
-/

namespace CodeIndex

/-- The parameters of each function and of each method. -/
def Declarations.paramLists (d : Declarations) : List (List Text) :=
  d.functions.map (·.params) ++ d.classes.flatMap fun c => c.methods.map (·.params)

namespace Markdown

/-- What the signature of a function shows before its parameters. -/
def signatureHead (f : FunctionDecl) : Text :=
  cat ["`".toList, if f.isAsync then "async ".toList else [], f.name, "(".toList]

/-- What the signature of a function shows behind its parameters. -/
def signatureTail (f : FunctionDecl) : Text :=
  cat [")".toList, suffixed " -> " f.returnType, "` (line ".toList, Text.ofInt f.line, ")".toList,
    suffixed " - " f.description]

theorem signature_eq (f : FunctionDecl) :
    signature f = signatureHead f ++ (commas f.params ++ signatureTail f) := by
  simp [signature, signatureHead, signatureTail, cat]

end Markdown

namespace Indented

open Text

variable {options : OutlineOptions} {s : ScanState} {n : Nat} {line : Text} {following : List Text}

namespace ScanState

/-- The parameters that a scan has recorded so far. -/
def paramLists (s : ScanState) : List (List Text) := s.found.paramLists

theorem mem_paramLists_iff {ps : List Text} : ps ∈ s.paramLists ↔
    (∃ f ∈ s.functions, f.params = ps) ∨ (∃ c ∈ s.classes, ∃ m ∈ c.methods, m.params = ps) ∨
      ∃ c, s.current = some c ∧ ∃ m ∈ c.methods, m.params = ps := by
  simp [paramLists, Declarations.paramLists, found, OpenClass.close]

@[simp] theorem paramLists_closeClass (s : ScanState) : s.closeClass.paramLists = s.paramLists := by
  rw [paramLists, found_closeClass, paramLists]

/-- A change of the open class that keeps the parameters of its methods keeps all parameters. -/
theorem paramLists_mapCurrent {f : OpenClass → OpenClass}
    (h : ∀ c, (f c).methods.map (·.params) = c.methods.map (·.params)) (s : ScanState) :
    (s.mapCurrent f).paramLists = s.paramLists := by
  obtain ⟨_, current, _⟩ := s
  cases current with
  | none => rfl
  | some c => simp [paramLists, Declarations.paramLists, found, mapCurrent, OpenClass.close, h]

/-- A description changes no parameters. -/
@[simp] theorem paramLists_attach (s : ScanState) (t : Text) :
    (s.attach t).paramLists = s.paramLists := by
  have hmap : ∀ fs : List FunctionDecl,
      (mapHead (fun f => { f with description := some t }) fs).map (·.params) =
        fs.map (·.params) := map_mapHead fun _ => rfl
  unfold attach
  dsimp only
  split
  · rfl
  · simp only [paramLists, found, Declarations.paramLists, List.map_reverse, hmap]
  · refine paramLists_mapCurrent (fun c => ?_) s
    rfl
  · refine paramLists_mapCurrent (fun c => ?_) s
    exact hmap c.methods

@[simp] theorem paramLists_useCompleted_attach (s : ScanState) :
    (s.useCompleted attach).paramLists = s.paramLists :=
  view_useCompleted (fun _ _ => rfl) paramLists_attach s

@[simp] theorem paramLists_feedTrailing (s : ScanState) (t : Text) :
    (s.feedTrailing t).paramLists = s.paramLists :=
  view_feedTrailing (fun _ _ => rfl) paramLists_attach s t

@[simp] theorem paramLists_fixBodyIndent (s : ScanState) (line : Text) :
    (s.fixBodyIndent line).paramLists = s.paramLists := by
  unfold fixBodyIndent
  split
  · refine paramLists_mapCurrent (fun c => ?_) s
    split <;> rfl
  · rfl

end ScanState

/-! ## What is recorded -/

/-- All parameters that were recorded are arguments in some text. -/
def HasArgumentParams (s : ScanState) : Prop := ∀ ps ∈ s.paramLists, ∃ t, ps.Sublist (arguments t)

theorem exists_params_readSignature (call : Text) (following : List Text) :
    ∃ t, (readSignature call following).1.params = arguments t := by
  unfold readSignature
  dsimp only
  split
  · exact ⟨_, rfl⟩
  · exact ⟨_, rfl⟩

namespace HasArgumentParams

section Step

variable {code trailing : Text} {indent : Nat}

/-- What was recorded, and the parameters of one function or method more. -/
theorem of_mem {s' : ScanState} (hs : HasArgumentParams s) {ps : List Text} {t : Text}
    (hps : ps.Sublist (arguments t)) (h : ∀ qs ∈ s'.paramLists, qs = ps ∨ qs ∈ s.paramLists) :
    HasArgumentParams s' := by
  intro qs hqs
  rcases h qs hqs with rfl | hold
  · exact ⟨t, hps⟩
  · exact hs qs hold

theorem stepClass (hs : HasArgumentParams s) (name : Text) :
    HasArgumentParams (stepClass s n name code trailing indent following).1 := by
  have hsame : (Indented.stepClass s n name code trailing indent following).1.paramLists =
      s.paramLists := by
    rw [← ScanState.paramLists_closeClass s, Indented.stepClass]
    simp only [ScanState.paramLists_feedTrailing]
    simp [ScanState.takePending, ScanState.paramLists, ScanState.found, Declarations.paramLists,
      OpenClass.close]
  rwa [HasArgumentParams, hsame]

theorem stepMember (hs : HasArgumentParams s) {c : OpenClass} (hc : s.current = some c) :
    HasArgumentParams (stepMember s c n code trailing indent following).1 := by
  unfold Indented.stepMember
  split
  · split
    · -- an attribute has no parameters
      rw [HasArgumentParams, ScanState.paramLists_feedTrailing, ScanState.paramLists_mapCurrent]
      · exact hs
      · intro c
        rfl
    · next h _ =>
      -- a method lists the parameters of its signature that are not implicit
      obtain ⟨t, ht⟩ := exists_params_readSignature h.call following
      have hparams : ((readSignature h.call following).1.params.filter (!isImplicitParam ·)).Sublist
          (arguments t) := ht ▸ List.filter_sublist
      refine hs.of_mem hparams fun qs hqs => ?_
      rw [ScanState.paramLists_feedTrailing, ScanState.mem_paramLists_iff] at hqs
      rw [ScanState.mem_paramLists_iff]
      rcases hqs with hf | hcs | ⟨c', hc', m, hm, rfl⟩
      · exact .inr (.inl hf)
      · exact .inr (.inr (.inl hcs))
      · obtain rfl : { c with methods := _ :: c.methods } = c' := by
          simpa only [ScanState.takePending, ScanState.mapCurrent, hc, Option.map_some,
            Option.some.injEq] using hc'
        rcases List.mem_cons.1 hm with rfl | hm
        · exact .inl rfl
        · exact .inr (.inr (.inr ⟨c, hc, m, hm, rfl⟩))
  · rw [HasArgumentParams, ScanState.paramLists_feedTrailing]
    exact hs

theorem stepOuter (hs : HasArgumentParams s) :
    HasArgumentParams (stepOuter options s n code trailing indent following).1 := by
  unfold Indented.stepOuter
  split
  · next h _ =>
    obtain ⟨t, ht⟩ := exists_params_readSignature h.call following
    have hparams : (readSignature h.call following).1.params.Sublist (arguments t) :=
      ht ▸ List.Sublist.refl _
    refine hs.of_mem hparams fun qs hqs => ?_
    have hsame : s.takePending.2.closeClass.paramLists = s.paramLists :=
      ScanState.paramLists_closeClass s.takePending.2
    rw [ScanState.paramLists_feedTrailing, ScanState.mem_paramLists_iff] at hqs
    rw [← hsame, ScanState.mem_paramLists_iff]
    rcases hqs with ⟨f, hf, rfl⟩ | hrest
    · rcases List.mem_cons.1 hf with rfl | hf
      · exact .inl rfl
      · exact .inr (.inl ⟨f, hf, rfl⟩)
    · exact .inr (.inr hrest)
  · have hsame : ((s.feedTrailing trailing).closeClass).paramLists = s.paramLists := by simp
    dsimp only
    split
    · rwa [HasArgumentParams, hsame]
    · rw [HasArgumentParams, ← hsame] at hs
      exact hs
  · rw [HasArgumentParams, ScanState.paramLists_feedTrailing]
    exact hs

theorem stepCode (hs : HasArgumentParams s) :
    HasArgumentParams (stepCode options s n code trailing indent following).1 := by
  unfold Indented.stepCode
  -- forgetting the latest declaration forgets no record
  change HasArgumentParams { s with latest := none } at hs
  generalize ({ s with latest := none } : ScanState) = s at hs
  dsimp only
  split
  · next name _ => exact hs.stepClass name
  · split
    · next c hc =>
      split
      · exact hs.stepMember hc
      · exact hs.stepOuter
    · exact hs.stepOuter

end Step

/-- **A step records only arguments of a text as parameters.** -/
theorem step (hs : HasArgumentParams s) :
    HasArgumentParams (step options s n line following).1 := by
  rw [HasArgumentParams, ← ScanState.paramLists_fixBodyIndent s line] at hs
  unfold Indented.step
  generalize s.fixBodyIndent line = s at hs
  dsimp only
  generalize (if s.strings.isOpen = true then (line, []) else splitHeaderString line) = code
  split
  · exact hs
  · split
    · rw [HasArgumentParams, ScanState.paramLists_useCompleted_attach]
      exact hs
    · split
      · exact hs
      · exact HasArgumentParams.stepCode (s := { s with strings := (s.strings.feed code.1).2 }) hs

/-- **All parameters that a scan records are arguments of some text.** -/
theorem scanLines (hs : HasArgumentParams s) (lines : List Text) :
    HasArgumentParams (scanLines options s n lines) := by
  fun_induction Indented.scanLines options s n lines with
  | case1 s n => exact hs
  | case2 s n line lines s' k hstep ih =>
    have hnext : HasArgumentParams (Indented.step options s n line lines).1 := hs.step
    rw [hstep] at hnext
    exact ih hnext

end HasArgumentParams

/-! ## Signatures -/

/-- The function is listed, or it is a method of a class that is listed. -/
def ListsFunction (d : Declarations) (f : FunctionDecl) : Prop :=
  f ∈ d.functions ∨ ∃ c ∈ d.classes, f ∈ c.methods

theorem exists_sublist_of_lists {content : Text} {f : FunctionDecl}
    (hf : ListsFunction (declarations options content) f) :
    ∃ t, f.params.Sublist (arguments t) := by
  have hnone : HasArgumentParams {} :=
    fun ps hps => absurd hps (by simp [ScanState.mem_paramLists_iff])
  have hscan : HasArgumentParams (scanLines options {} 1 (lines content)) := hnone.scanLines _
  refine hscan f.params ?_
  rw [declarations, ScanState.declarations_eq_found] at hf
  rw [ScanState.paramLists, Declarations.paramLists, List.mem_append, List.mem_flatMap]
  rcases hf with hf | ⟨c, hc, hf⟩
  · exact .inl (List.mem_map_of_mem hf)
  · refine .inr ⟨c, ?_, List.mem_map_of_mem hf⟩
    dsimp only at hc
    split at hc
    · exact hc
    · exact absurd hc List.not_mem_nil

/-- **A list of parameters reads back.** Some of the arguments of a text, in their order and with
commas between them, are the arguments of the text that this gives; so what stands between the
parentheses in the signature of a function or method of an outline has the parameters as its
arguments, whatever the source looked like. -/
theorem arguments_signature :
    (∀ (t : Text) (ps : List Text), ps.Sublist (arguments t) →
      arguments (Markdown.commas ps) = ps) ∧
    ∀ (options : OutlineOptions) (content : Text) (f : FunctionDecl),
      ListsFunction (declarations options content) f →
        ∃ inside,
          Markdown.signature f = Markdown.signatureHead f ++ (inside ++ Markdown.signatureTail f) ∧
            arguments inside = f.params := by
  refine ⟨fun t ps hps => arguments_commaList_of_sublist hps, fun options content f hf => ?_⟩
  obtain ⟨t, ht⟩ := exists_sublist_of_lists hf
  exact ⟨Markdown.commas f.params, Markdown.signature_eq f, arguments_commaList_of_sublist ht⟩

/-- A method of a class; its parentheses and its last quote are never closed. -/
def unclosedMethod : FunctionDecl :=
  { name := "m".toList, params := ["a=[1, 2]".toList, "*(b, 'c, d".toList], line := 2 }

theorem arguments_signature_unclosedMethod :
    ["a".toList, "*(b".toList].Sublist (arguments "a, [x, y], *(b".toList) ∧
      arguments (Markdown.commas ["a".toList, "*(b".toList]) = ["a".toList, "*(b".toList] ∧
      ListsFunction (declarations {} "class A:\n    def m(self, a=[1, 2], *(b, 'c, d".toList)
        unclosedMethod ∧
        ∃ inside, Markdown.signature unclosedMethod =
            Markdown.signatureHead unclosedMethod ++
              (inside ++ Markdown.signatureTail unclosedMethod) ∧
          arguments inside = ["a=[1, 2]".toList, "*(b, 'c, d".toList] := by
  have hsub : ["a".toList, "*(b".toList].Sublist (arguments "a, [x, y], *(b".toList) := by decide
  have hlists :
      ListsFunction (declarations {} "class A:\n    def m(self, a=[1, 2], *(b, 'c, d".toList)
        unclosedMethod := .inr (by decide +kernel)
  exact ⟨hsub, arguments_signature.1 _ _ hsub, hlists, arguments_signature.2 {} _ _ hlists⟩

end Indented

end CodeIndex
