import Mathlib.Data.List.Count
import Mathlib.Data.List.Nodup
import Mathlib.Data.List.Pairwise
import CodeIndex.Endpoint.View
import CodeIndex.Proofs.Extract
import CodeIndex.Proofs.Indented.Placement
import CodeIndex.Proofs.Text.Lines

/-!
# How often a method of a view is an endpoint

The headers of class views are searched for in the text, and each hit is joined by its name with the
first class of the outline that has this name. So a handler method of that class is an endpoint as
many times as the text has headers of views with its name (`viewHeaders`), and the handlers of a
later class with the same name are none (`count_methodLines`). The endpoints of methods stand on
different lines exactly when no view is headed twice (`methodLines_nodup_iff`). A header in a string
makes a method an endpoint twice (`methodLines_headerInString`).
-/

namespace CodeIndex

open Text

namespace Indented

variable {src : List Text} {d : Declarations}

theorem wellPlaced_of_extract {options : OutlineOptions} {root path content : Text}
    {outline : Outline} {broken : Bool}
    (h : Extractor.python.extract options root path content = .ok (outline, broken)) :
    WellPlaced (lines content) outline.toDeclarations := by
  have hfound := wellPlaced_found options (lines content)
  rw [toDeclarations_of_extract h, declarations, ScanState.declarations_eq_found]
  split
  · exact hfound
  · exact hfound.withoutClasses

/-- Methods of different classes stand on different lines. -/
theorem WellPlaced.class_unique (h : WellPlaced src d) {c c' : ClassDecl} (hc : c ∈ d.classes)
    (hc' : c' ∈ d.classes) {m m' : FunctionDecl} (hm : m ∈ c.methods) (hm' : m' ∈ c'.methods)
    (hline : m.line = m'.line) : c = c' := by
  have hdistinct : (d.classes.flatMap fun c => c.line :: c.methods.map (·.line)).Nodup :=
    h.distinct.of_append_left.of_append_right
  have hsymm : Std.Symm (Function.onFun List.Disjoint
      fun c : ClassDecl => c.line :: c.methods.map (·.line)) := ⟨fun _ _ h _ hb ha => h ha hb⟩
  by_contra hne
  have hdisjoint := (List.nodup_flatMap.1 hdistinct).2.forall hc hc' hne
  refine hdisjoint (List.mem_cons_of_mem _ (List.mem_map_of_mem hm)) ?_
  rw [hline]
  exact List.mem_cons_of_mem _ (List.mem_map_of_mem hm')

theorem WellPlaced.eq_of_line_eq (h : WellPlaced src d) {c c' : ClassDecl} (hc : c ∈ d.classes)
    (hc' : c' ∈ d.classes) (hline : c.line = c'.line) : c = c' :=
  List.inj_on_of_nodup_map (h.classesOrdered.imp Int.ne_of_lt) hc hc' hline

end Indented

namespace Endpoint

open Indented

/-! ## Handlers of views -/

/-- The methods of a class that answer requests. -/
def handlers (c : ClassDecl) : List FunctionDecl :=
  c.methods.filter fun m => viewHandlers.contains m.name

/-- The class is the first one of its name. -/
def IsFirstNamed (classes : List ClassDecl) (c : ClassDecl) : Prop :=
  ∀ c' ∈ classes, c'.name = c.name → c.line ≤ c'.line

instance (classes : List ClassDecl) (c : ClassDecl) : Decidable (IsFirstNamed classes c) :=
  inferInstanceAs (Decidable (∀ c' ∈ classes, c'.name = c.name → c.line ≤ c'.line))

/-- The number of headers in the text that have a name and a base that is a view. -/
def viewHeaders (content name : Text) : Nat :=
  (searchAll classBases content).countP fun hit => hit.value.1 = name ∧ hasViewBase hit.value.2

/-- The endpoint is named by a class and a method of it. -/
def isMethodView (e : Endpoint) : Bool := '.' ∈ e.handler

/-- The lines of the endpoints that are named by a class and a method. -/
def methodLines (outline : Outline) (content : Text) : List Int :=
  ((views outline content).filter isMethodView).map (·.line)

/-- The handlers of the first class with a name. -/
def namedHandlers (classes : List ClassDecl) (name : Text) : List FunctionDecl :=
  ((classes.find? (·.name = name)).map handlers).getD []

section Find

variable {src : List Text} {d : Declarations} (hplaced : WellPlaced src d)
include hplaced

/-- **The class that a name is joined with is the first one of this name.** -/
theorem find?_eq_some_iff {name : Text} {c : ClassDecl} :
    d.classes.find? (·.name = name) = some c ↔
      c ∈ d.classes ∧ c.name = name ∧ IsFirstNamed d.classes c := by
  have hfirst : ∀ c, d.classes.find? (·.name = name) = some c → IsFirstNamed d.classes c := by
    intro c hfind c' hc' hname
    obtain ⟨hc, before, after, hclasses, hbefore⟩ := List.find?_eq_some_iff_append.1 hfind
    have hordered := hplaced.classesOrdered
    rw [hclasses] at hc' hordered
    rw [List.map_append, List.map_cons, List.pairwise_append, List.pairwise_cons] at hordered
    rcases List.mem_append.1 hc' with hc' | hc'
    · simp_all
    · rcases List.mem_cons.1 hc' with rfl | hc'
      · exact Int.le_refl _
      · exact Int.le_of_lt (hordered.2.1.1 _ (List.mem_map_of_mem hc'))
  constructor
  · intro hfind
    exact ⟨List.mem_of_find?_eq_some hfind, by simpa using List.find?_some hfind, hfirst c hfind⟩
  · rintro ⟨hc, hname, hle⟩
    obtain ⟨c', hfind⟩ : ∃ c', d.classes.find? (·.name = name) = some c' := by
      rw [← Option.isSome_iff_exists, List.find?_isSome]
      exact ⟨c, hc, by simpa using hname⟩
    have hc' : c' ∈ d.classes := List.mem_of_find?_eq_some hfind
    have hname' : c'.name = name := by simpa using List.find?_some hfind
    have hline : c'.line = c.line :=
      Int.le_antisymm (hfirst c' hfind c hc (hname.trans hname'.symm))
        (hle c' hc' (hname'.trans hname.symm))
    rw [hfind, hplaced.eq_of_line_eq hc' hc hline]

/-- A handler is among those of its name once, if its class is the first one of that name. -/
theorem count_namedHandlers {c : ClassDecl} (hc : c ∈ d.classes) {m : FunctionDecl}
    (hm : m ∈ handlers c) (name : Text) :
    ((namedHandlers d.classes name).map (·.line)).count m.line =
      if c.name = name ∧ IsFirstNamed d.classes c then 1 else 0 := by
  have hmethod : m ∈ c.methods := List.mem_of_mem_filter hm
  rw [namedHandlers]
  split
  · next hname =>
    rw [(find?_eq_some_iff hplaced).2 ⟨hc, hname⟩, Option.map_some, Option.getD_some]
    refine List.count_eq_one_of_mem ?_ (List.mem_map_of_mem hm)
    exact ((hplaced.methodsOrdered c hc).imp Int.ne_of_lt).sublist (List.filter_sublist.map _)
  · next hname =>
    rw [List.count_eq_zero]
    intro hmem
    cases hfind : d.classes.find? (·.name = name) with
    | none => simp [hfind] at hmem
    | some c' =>
      rw [hfind, Option.map_some, Option.getD_some] at hmem
      obtain ⟨m', hm', hline⟩ := List.mem_map.1 hmem
      obtain ⟨hc', hnamed⟩ := (find?_eq_some_iff hplaced).1 hfind
      obtain rfl := hplaced.class_unique hc hc' hmethod (List.mem_of_mem_filter hm') hline.symm
      exact hname hnamed

end Find

/-! ## Endpoints of methods -/

theorem isWord_of_viewFunction? {t name rest : Text} (h : viewFunction? t = some (name, rest)) :
    ∀ c ∈ name, isWord c = true := by
  simp only [viewFunction?, Option.bind_eq_bind, Option.bind_eq_some_iff] at h
  obtain ⟨_, -, _, -, _, -, _, -, hword⟩ := h
  exact (of_word? hword).2.1

/-- The name of a function view is a word. -/
theorem isWord_of_apiView {before : Option Char} {t name rest : Text} {listed : Option Text}
    (h : apiView before t = some ((listed, name), rest)) : ∀ c ∈ name, isWord c = true := by
  simp only [apiView, Option.bind_eq_bind, Option.bind_eq_some_iff] at h
  obtain ⟨u, -, h⟩ := h
  split at h
  · next view hlisted =>
    obtain rfl := Option.some.inj h
    split at hlisted
    · split at hlisted
      · split at hlisted
        · simp only [Option.map_eq_some_iff] at hlisted
          obtain ⟨⟨name', rest'⟩, hview, heq⟩ := hlisted
          obtain ⟨⟨-, rfl⟩, -⟩ : (_ ∧ name' = name) ∧ rest' = rest := by simpa using heq
          exact isWord_of_viewFunction? hview
        · exact absurd hlisted (by simp)
      · exact absurd hlisted (by simp)
    · exact absurd hlisted (by simp)
  · simp only [Option.map_eq_some_iff] at h
    obtain ⟨⟨name', rest'⟩, hview, heq⟩ := h
    obtain ⟨⟨-, rfl⟩, -⟩ : (_ ∧ name' = name) ∧ rest' = rest := by simpa using heq
    exact isWord_of_viewFunction? hview

variable {outline : Outline} {content : Text} {auth : Bool}

theorem isMethodView_functionViews :
    ∀ e ∈ functionViews outline content auth, ¬ isMethodView e = true := by
  intro e he
  simp only [functionViews, List.mem_flatMap] at he
  obtain ⟨hit, hhit, he⟩ := he
  obtain ⟨-, hread⟩ := of_hitIn? (hitIn?_of_mem_searchAll hhit).2
  obtain ⟨method, -, rfl⟩ := List.mem_map.1 he
  rw [isMethodView, decide_eq_true_eq]
  intro hdot
  exact absurd (isWord_of_apiView hread '.' hdot) (by decide)

theorem isMethodView_classViews :
    ∀ e ∈ classViews outline content auth, isMethodView e = true := by
  intro e he
  simp only [classViews, List.mem_flatMap] at he
  obtain ⟨hit, -, he⟩ := he
  split at he
  · split at he
    · exact absurd he List.not_mem_nil
    · obtain ⟨m, -, rfl⟩ := List.mem_map.1 he
      simp [isMethodView]
  · exact absurd he List.not_mem_nil

/-- The lines of the endpoints of methods, header by header. -/
theorem methodLines_eq (outline : Outline) (content : Text) : methodLines outline content =
    (searchAll classBases content).flatMap fun hit =>
      if hasViewBase hit.value.2 then (namedHandlers outline.classes hit.value.1).map (·.line)
      else [] := by
  rw [methodLines, views, List.filter_append, List.filter_eq_nil_iff.2 isMethodView_functionViews,
    List.filter_eq_self.2 isMethodView_classViews, List.nil_append, classViews, List.map_flatMap]
  congr 1
  funext hit
  obtain ⟨⟨name, bases⟩, start, stop, rest⟩ := hit
  dsimp only
  split
  · rw [namedHandlers]
    cases outline.classes.find? (·.name = name) with
    | none => rfl
    | some c => simp [handlers]
  · rfl

section Count

variable {src : List Text} (hplaced : WellPlaced src outline.toDeclarations)
include hplaced

/-- An endpoint of a method is one of a handler of the first class with its name. -/
theorem exists_handler_of_mem_views {e : Endpoint} (he : e ∈ views outline content)
    (hmethod : isMethodView e = true) :
    ∃ c ∈ outline.classes, ∃ m ∈ handlers c, IsFirstNamed outline.classes c ∧
      e.handler = c.name ++ '.' :: m.name ∧ e.line = m.line := by
  have he : e ∈ classViews outline content (containsAny viewAuthMarkers content) :=
    (List.mem_append.1 he).resolve_left fun hfunction => isMethodView_functionViews e hfunction
      hmethod
  simp only [classViews, List.mem_flatMap] at he
  obtain ⟨hit, -, he⟩ := he
  split at he
  · split at he
    · exact absurd he List.not_mem_nil
    · next c hfind =>
      obtain ⟨hc, hname, hfirst⟩ := (find?_eq_some_iff hplaced).1 hfind
      obtain ⟨m, hm, rfl⟩ := List.mem_map.1 he
      exact ⟨c, hc, m, hm, hfirst, by rw [hname], rfl⟩
  · exact absurd he List.not_mem_nil

/-- **A handler is an endpoint as often as the text heads its class as a view**, and never if
another class of the same name comes before it. -/
theorem count_methodLines {c : ClassDecl} (hc : c ∈ outline.classes) {m : FunctionDecl}
    (hm : m ∈ handlers c) (content : Text) :
    (methodLines outline content).count m.line =
      if IsFirstNamed outline.classes c then viewHeaders content c.name else 0 := by
  rw [methodLines_eq, viewHeaders]
  -- by induction on the headers: one of them adds at most one
  induction searchAll classBases content with
  | nil => simp
  | cons hit hits ih =>
    have hone : (if hasViewBase hit.value.2 = true then
          (namedHandlers outline.classes hit.value.1).map (·.line) else []).count m.line =
        if IsFirstNamed outline.classes c then
          if hit.value.1 = c.name ∧ hasViewBase hit.value.2 = true then 1 else 0
        else 0 := by
      by_cases hview : hasViewBase hit.value.2 = true
      · rw [if_pos hview, count_namedHandlers hplaced hc hm hit.value.1, ← ite_and]
        exact if_congr ⟨fun h => ⟨h.2, h.1.symm, hview⟩, fun h => ⟨h.2.1.symm, h.1⟩⟩ rfl rfl
      · have hnot : ¬ (hit.value.1 = c.name ∧ hasViewBase hit.value.2 = true) := fun h => hview h.2
        rw [if_neg hview, List.count_nil, if_neg hnot, ite_self]
    rw [List.flatMap_cons, List.count_append, hone, ih, List.countP_cons]
    simp only [decide_eq_true_eq]
    split
    · exact Nat.add_comm _ _
    · rfl

end Count

/-- **Every handler is an endpoint once exactly when no view is headed twice.** The endpoints that
are named by a class and a method are those of the handlers of the first class with a name; each of
these handlers occurs among them as often as the text heads a view of that name, and the handlers of
a later class do not occur. So they stand on different lines exactly when the text heads each class
that has handlers, and is the first of its name, at most once as a view. -/
theorem methodLines_nodup_iff {options : OutlineOptions} {root path content : Text}
    {outline : Outline} {broken : Bool}
    (hextract : Extractor.python.extract options root path content = .ok (outline, broken)) :
    (∀ e ∈ views outline content, isMethodView e = true →
      ∃ c ∈ outline.classes, ∃ m ∈ handlers c, IsFirstNamed outline.classes c ∧
        e.handler = c.name ++ '.' :: m.name ∧ e.line = m.line) ∧
      (∀ c ∈ outline.classes, ∀ m ∈ handlers c, (methodLines outline content).count m.line =
        if IsFirstNamed outline.classes c then viewHeaders content c.name else 0) ∧
      ((methodLines outline content).Nodup ↔ ∀ c ∈ outline.classes, IsFirstNamed outline.classes c →
        handlers c ≠ [] → viewHeaders content c.name ≤ 1) := by
  have hplaced := wellPlaced_of_extract hextract
  have hcount : ∀ c ∈ outline.classes, ∀ m ∈ handlers c,
      (methodLines outline content).count m.line =
        if IsFirstNamed outline.classes c then viewHeaders content c.name else 0 :=
    fun c hc m hm => count_methodLines hplaced hc hm content
  refine ⟨fun e he hmethod => exists_handler_of_mem_views hplaced he hmethod, hcount, ?_⟩
  rw [List.nodup_iff_count_le_one]
  constructor
  · intro h c hc hfirst hhandlers
    obtain ⟨m, hm⟩ := List.exists_mem_of_ne_nil _ hhandlers
    have hle := h m.line
    rwa [hcount c hc m hm, if_pos hfirst] at hle
  · intro h n
    by_cases hn : n ∈ methodLines outline content
    · obtain ⟨e, he, rfl⟩ := List.mem_map.1 hn
      obtain ⟨he, hmethod⟩ := List.mem_filter.1 he
      obtain ⟨c, hc, m, hm, hfirst, -, hline⟩ := exists_handler_of_mem_views hplaced he hmethod
      rw [hline, hcount c hc m hm, if_pos hfirst]
      exact h c hc hfirst (List.ne_nil_of_mem hm)
    · rw [List.count_eq_zero_of_not_mem hn]
      exact Nat.zero_le 1

/-- A view, and its header once more in a string. -/
def headerInString : Text :=
  unlines (["class A(View):", "    def get(self):", "        pass", "", "TEXT = \"\"\"",
    "class A(View):", "\"\"\""].map String.toList)

theorem methodLines_nodup_iff_headerInString :
    ∃ outline, Extractor.python.extract {} "/".toList "/v.py".toList headerInString =
        .ok (outline, false) ∧
      ((methodLines outline headerInString).Nodup ↔ ∀ c ∈ outline.classes,
        IsFirstNamed outline.classes c → handlers c ≠ [] →
          viewHeaders headerInString c.name ≤ 1) := by
  have hextract := @extract_python "/v.py".toList (by decide +kernel) {} "/".toList headerInString
  exact ⟨_, hextract, (methodLines_nodup_iff hextract).2.2⟩

/-- **A header in a string makes a method an endpoint twice.** The outline has one class with one
method, and both endpoints stand on its line. -/
theorem methodLines_headerInString :
    ∃ outline, Extractor.python.extract {} "/".toList "/v.py".toList headerInString =
        .ok (outline, false) ∧
      outline.classes.map (fun c => (c.name, c.methods.map (·.line))) = [("A".toList, [2])] ∧
      methodLines outline headerInString = [2, 2] ∧
      ¬ (methodLines outline headerInString).Nodup := by
  have hextract := @extract_python "/v.py".toList (by decide +kernel) {} "/".toList headerInString
  exact ⟨_, hextract, by decide +kernel, by decide +kernel, by decide +kernel⟩

end Endpoint

end CodeIndex
