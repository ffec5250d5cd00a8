import CodeIndex.Proofs.Script.Preorder
import Mathlib.Data.List.Nodup
import Mathlib.Data.Option.Basic

/-!
# Records of a script

The declarations of a script are what its nodes contribute, one node after the other in pre-order
(`foldl_visit`). A contribution is one record at most, and none but a function comes from a node
that declares a function or a variable with a function for its value. `Cursor.recorded?` is the node
of that function; no two nodes record the same one (`nodup_recorded`), for the value of a variable
makes no record of its own.
-/

namespace CodeIndex

/-- The lists of the one followed by those of the other. -/
def Declarations.append (d e : Declarations) : Declarations where
  functions := d.functions ++ e.functions
  classes := d.classes ++ e.classes
  interfaces := d.interfaces ++ e.interfaces
  imports := d.imports ++ e.imports

/-- The number of records. -/
def Declarations.count (d : Declarations) : Nat :=
  d.functions.length + d.classes.length + d.interfaces.length + d.imports.length

namespace Script

variable {options : OutlineOptions} {s : Source} {c v : Cursor}

/-! ## What a node contributes -/

/-- The record of a node, if it makes one of a kind that is asked for. -/
def contribution (options : OutlineOptions) (s : Source) (c : Cursor) : Declarations :=
  visit options s {} c

theorem visit_eq_append (d : Declarations) (c : Cursor) :
    visit options s d c = d.append (contribution options s c) := by
  simp only [contribution, visit]
  split <;> try split
  all_goals simp [Declarations.append]

theorem count_contribution_le (c : Cursor) : (contribution options s c).count ≤ 1 := by
  simp only [contribution, visit]
  split <;> try split
  all_goals simp [Declarations.count]

/-- **Visits add the contributions of the nodes, list by list.** -/
theorem foldl_visit (cursors : List Cursor) (d : Declarations) :
    cursors.foldl (visit options s) d = d.append
      { functions := cursors.flatMap fun c => (contribution options s c).functions
        classes := cursors.flatMap fun c => (contribution options s c).classes
        interfaces := cursors.flatMap fun c => (contribution options s c).interfaces
        imports := cursors.flatMap fun c => (contribution options s c).imports } := by
  induction cursors generalizing d with
  | nil => simp [Declarations.append]
  | cons c cursors ih => rw [List.foldl_cons, ih, visit_eq_append]; simp [Declarations.append]

theorem declarations_eq_foldl (options : OutlineOptions) (s : Source) (root : Node) :
    declarations options s root = (root.preorder .root).foldl (visit options s) {} := by
  rw [declarations, Cursor.walk_eq_foldl, List.flatMap_singleton, Cursor.preorder]

/-! ## Kinds -/

namespace Node

variable {n : Node}

/-- A node has one kind. -/
theorem isAny_eq_false {kinds kinds' : List String} (h : n.isAny kinds = true)
    (hdisjoint : ∀ kind ∈ kinds, kind ∉ kinds') : n.isAny kinds' = false := by
  simp only [isAny, List.any_eq_true, is, decide_eq_true_eq] at h
  obtain ⟨kind, hkind, hn⟩ := h
  simp only [isAny, List.any_eq_false, is, decide_eq_true_eq, hn, String.toList_inj]
  rintro kind' hkind' rfl
  exact hdisjoint kind hkind hkind'

theorem isAny_singleton (n : Node) (kind : String) : n.isAny [kind] = n.is kind := by simp [isAny]

theorem is_eq_false {kinds : List String} {kind : String} (h : n.isAny kinds = true)
    (hkind : kind ∉ kinds) : n.is kind = false := by
  rw [← isAny_singleton]
  refine isAny_eq_false h fun kind' hkind' heq => ?_
  obtain rfl := List.mem_singleton.1 heq
  exact hkind hkind'

end Node

namespace Cursor

/-! ## Functions -/

/-- The node declares a function by itself: it is a declaration, or a function that is exported. -/
def declaresFunction (c : Cursor) : Bool :=
  c.node.isAny ["function_declaration", "generator_function_declaration"] ||
    (c.node.isAny functionValues && c.isExported)

/-- The function that is the value of the variable which a node declares. -/
def functionValue? (c : Cursor) : Option Cursor :=
  if c.node.is "variable_declarator" then
    (c.children.find? (·.node.field = some "value".toList)).filter (·.node.isAny functionValues)
  else none

/-- The node of the function that a node records: itself, or the value of a variable. -/
def recorded? (c : Cursor) : Option Cursor :=
  if c.declaresFunction then some c else c.functionValue?

theorem functionValue?_eq_some_iff :
    c.functionValue? = some v ↔ c.node.is "variable_declarator" = true ∧
      c.children.find? (·.node.field = some "value".toList) = some v ∧
      v.node.isAny functionValues = true := by
  unfold functionValue?
  split
  · next h => simp [h, Option.filter_eq_some_iff]
  · next h => simp [h]

theorem map_node_childrenFrom (parent : Node) (above : Place) (before ns : List Node) :
    (childrenFrom parent above before ns).map (·.node) = ns := by
  induction ns generalizing before with
  | nil => rfl
  | cons n ns ih => rw [childrenFrom, List.map_cons, ih]

/-- The first child in a role, with its place. -/
theorem map_find?_children (c : Cursor) (field : String) :
    (c.children.find? (·.node.field = some field.toList)).map (·.node) =
      c.node.childByField? field := by
  rw [Node.childByField?, ← map_node_childrenFrom c.node c.place [] c.node.children, List.find?_map]
  rfl

theorem record?_of_declaresFunction (h : c.declaresFunction = true) (s : Source) :
    c.record? s = some (.function (c.functionDecl s)) := by
  rw [declaresFunction, Bool.or_eq_true] at h
  unfold record?
  dsimp only
  rcases h with h | h
  · rw [if_pos h]
  · rw [if_pos h, ite_self]

theorem declaresFunction_of_isDeclarator (h : c.node.is "variable_declarator" = true) :
    c.declaresFunction = false := by
  have hdeclarator : c.node.isAny ["variable_declarator"] = true :=
    (Node.isAny_singleton ..).trans h
  have hdeclaration :
      c.node.isAny ["function_declaration", "generator_function_declaration"] = false :=
    Node.isAny_eq_false hdeclarator (by decide)
  have hvalue : c.node.isAny functionValues = false := Node.isAny_eq_false hdeclarator (by decide)
  rw [declaresFunction, hdeclaration, hvalue, Bool.false_and, Bool.or_false]

/-- A variable is recorded if its value is a function. -/
theorem record?_of_isDeclarator (h : c.node.is "variable_declarator" = true) (s : Source) :
    c.record? s = c.functionValue?.map fun v => .function (c.functionVariable s v.node) := by
  have hdeclares := declaresFunction_of_isDeclarator h
  rw [declaresFunction, Bool.or_eq_false_iff] at hdeclares
  simp only [record?, functionValue?, hdeclares.1, hdeclares.2, h, Bool.false_eq_true, ↓reduceIte,
    ← map_find?_children]
  cases c.children.find? (·.node.field = some "value".toList) with
  | none => rfl
  | some v => cases hv : v.node.isAny functionValues <;> simp [hv, guard, failure, Option.filter]

theorem exists_of_record?_eq_function {f : FunctionDecl} (h : c.record? s = some (.function f)) :
    (c.declaresFunction = true ∧ f = c.functionDecl s) ∨
      ∃ v, c.functionValue? = some v ∧ f = c.functionVariable s v.node := by
  by_cases hdeclares : c.declaresFunction = true
  · rw [record?_of_declaresFunction hdeclares] at h
    exact .inl ⟨hdeclares, by simpa using h.symm⟩
  · by_cases hdeclarator : c.node.is "variable_declarator" = true
    · rw [record?_of_isDeclarator hdeclarator, Option.map_eq_some_iff] at h
      obtain ⟨v, hv, hf⟩ := h
      exact .inr ⟨v, hv, by simpa using hf.symm⟩
    · -- the records of the other kinds of nodes are no functions
      simp only [declaresFunction, Bool.or_eq_true, not_or] at hdeclares
      unfold record? at h
      rw [if_neg hdeclares.1, if_neg hdeclares.2, if_neg hdeclarator] at h
      split at h
      · cases h
      · split at h
        · cases h
        · split at h
          · obtain ⟨value, -, h⟩ := Option.bind_eq_some_iff.1 h
            obtain ⟨-, -, h⟩ := Option.bind_eq_some_iff.1 h
            cases h
          · split at h
            · obtain ⟨i, -, h⟩ := Option.map_eq_some_iff.1 h
              cases h
            · cases h

section FunctionValue

variable (h : c.functionValue? = some v)
include h

theorem mem_children_of_functionValue? : v ∈ c.children :=
  List.mem_of_find?_eq_some (functionValue?_eq_some_iff.1 h).2.1

/-- The value of a variable is not exported. -/
theorem isExported_of_functionValue? : v.isExported = false := by
  rw [isExported, parent?_of_mem_children (mem_children_of_functionValue? h), Option.any_some]
  have hdeclarator := (functionValue?_eq_some_iff.1 h).1
  rw [← Node.isAny_singleton] at hdeclarator
  exact Node.is_eq_false hdeclarator (by decide)

/-- **The value of a variable makes no record of its own.** -/
theorem record?_of_functionValue? (s : Source) : v.record? s = none := by
  have hvalue := (functionValue?_eq_some_iff.1 h).2.2
  have hany {kinds : List String} (hkinds : ∀ kind ∈ functionValues, kind ∉ kinds) :
      v.node.isAny kinds = false := Node.isAny_eq_false hvalue hkinds
  have his {kind : String} (hkind : kind ∉ functionValues) : v.node.is kind = false :=
    Node.is_eq_false hvalue hkind
  simp (disch := decide) [record?, hany, his, isExported_of_functionValue? h]

theorem declaresFunction_of_functionValue? : v.declaresFunction = false := by
  by_contra hdeclares
  have hrecord := record?_of_declaresFunction (Bool.not_eq_false _ ▸ hdeclares) (#[] : Source)
  rw [record?_of_functionValue? h] at hrecord
  cases hrecord

end FunctionValue

theorem recorded?_eq_some_iff : c.recorded? = some v ↔
    (c.declaresFunction = true ∧ v = c) ∨ c.functionValue? = some v := by
  unfold recorded?
  split
  · next h =>
    have hvalue : c.functionValue? ≠ some v := by
      intro hv
      simp [declaresFunction_of_isDeclarator (functionValue?_eq_some_iff.1 hv).1] at h
    simp [h, hvalue, eq_comm]
  · next h => simp [h]

end Cursor

/-! ## Contributions of functions -/

theorem contribution_of_none (h : c.record? s = none) : contribution options s c = {} := by
  simp only [contribution, visit, h]

theorem contribution_of_function {f : FunctionDecl} (h : c.record? s = some (.function f)) :
    contribution options s c = { functions := [f] } := by
  simp [contribution, visit, h]

theorem functions_contribution (options : OutlineOptions) (s : Source) (c : Cursor) :
    (contribution options s c).functions = ((c.record? s).bind fun
      | .function f => some f
      | _ => none).toList := by
  simp only [contribution, visit]
  split <;> try split
  all_goals simp_all

theorem mem_functions_contribution {f : FunctionDecl} :
    f ∈ (contribution options s c).functions ↔ c.record? s = some (.function f) := by
  rw [functions_contribution, Option.mem_toList, Option.bind_eq_some_iff]
  constructor
  · rintro ⟨r, hr, h⟩
    split at h
    · cases h
      exact hr
    · cases h
  · exact fun h => ⟨_, h, rfl⟩

/-- A node contributes as many functions as it records: one or none. -/
theorem length_functions_contribution (options : OutlineOptions) (s : Source) (c : Cursor) :
    (contribution options s c).functions.length = c.recorded?.toList.length := by
  cases hrecorded : c.recorded? with
  | some v =>
    rcases Cursor.recorded?_eq_some_iff.1 hrecorded with ⟨hdeclares, -⟩ | hvalue
    · rw [contribution_of_function (Cursor.record?_of_declaresFunction hdeclares s)]
      rfl
    · have hdeclarator := (Cursor.functionValue?_eq_some_iff.1 hvalue).1
      have hrecord := Cursor.record?_of_isDeclarator hdeclarator s
      rw [hvalue, Option.map_some] at hrecord
      rw [contribution_of_function hrecord]
      rfl
  | none =>
    rw [Option.toList_none, List.length_nil, List.length_eq_zero_iff,
      List.eq_nil_iff_forall_not_mem]
    intro f hf
    rcases Cursor.exists_of_record?_eq_function (mem_functions_contribution.1 hf) with
      ⟨hdeclares, -⟩ | ⟨v, hvalue, -⟩
    · rw [Cursor.recorded?_eq_some_iff.2 (.inl ⟨hdeclares, rfl⟩)] at hrecorded
      cases hrecorded
    · rw [Cursor.recorded?_eq_some_iff.2 (.inr hvalue)] at hrecorded
      cases hrecorded

/-! ## The whole tree -/

/-- The lists are what the nodes contribute to them, one node after the other, and no node
contributes more than one record. -/
structure Concatenates (options : OutlineOptions) (s : Source) (cursors : List Cursor)
    (d : Declarations) : Prop where
  functions : d.functions = cursors.flatMap fun c => (contribution options s c).functions
  classes : d.classes = cursors.flatMap fun c => (contribution options s c).classes
  interfaces : d.interfaces = cursors.flatMap fun c => (contribution options s c).interfaces
  imports : d.imports = cursors.flatMap fun c => (contribution options s c).imports
  atMostOne : ∀ c ∈ cursors, (contribution options s c).count ≤ 1

/-- No function is recorded twice. -/
structure RecordsOnce (options : OutlineOptions) (s : Source) (cursors : List Cursor) : Prop where
  /-- A function that is the value of a variable is recorded with the variable, and not by
  itself. -/
  values : ∀ c ∈ cursors, ∀ v, c.functionValue? = some v → v ∈ cursors ∧
    contribution options s v = {} ∧
      contribution options s c = { functions := [c.functionVariable s v.node] }
  /-- Every other function is recorded by its own node. -/
  others : ∀ c ∈ cursors, c.functionValue? = none → ∀ f ∈ (contribution options s c).functions,
    c.recorded? = some c ∧ f = c.functionDecl s
  counts : ∀ c ∈ cursors, (contribution options s c).functions.length = c.recorded?.toList.length
  distinct : ((cursors.filterMap Cursor.recorded?).map (·.place.address)).Nodup

section Preorder

variable {root : Node}

/-- A node is told by its address. -/
theorem eq_of_address_eq (hc : c ∈ root.preorder .root) (hv : v ∈ root.preorder .root)
    (h : c.place.address = v.place.address) : c = v :=
  List.inj_on_of_nodup_map (listsOnce_preorder root).nodup hc hv h

theorem mem_preorder_of_functionValue? (hc : c ∈ root.preorder .root)
    (h : c.functionValue? = some v) : v ∈ root.preorder .root :=
  Cursor.mem_preorder_of_mem_children (c := ⟨root, .root⟩) hc
    (Cursor.mem_children_of_functionValue? h)

/-- **No two nodes record the same function.** -/
theorem nodup_recorded (root : Node) :
    (((root.preorder .root).filterMap Cursor.recorded?).map (·.place.address)).Nodup := by
  refine List.pairwise_map.2 (List.pairwise_filterMap.2 ?_)
  refine (listsOnce_preorder root).increasing.imp_of_mem ?_
  intro c d hc hd hlt v hv w hw heq
  have hne : c ≠ d := by
    rintro rfl
    exact List.lt_irrefl _ hlt
  rcases Cursor.recorded?_eq_some_iff.1 hv with ⟨hdeclares, rfl⟩ | hvalue <;>
    rcases Cursor.recorded?_eq_some_iff.1 hw with ⟨hdeclares', rfl⟩ | hvalue'
  · exact hne (eq_of_address_eq hc hd heq)
  · -- the value of a variable declares no function by itself
    obtain rfl := eq_of_address_eq hc (mem_preorder_of_functionValue? hd hvalue') heq
    simp [Cursor.declaresFunction_of_functionValue? hvalue'] at hdeclares
  · obtain rfl := eq_of_address_eq (mem_preorder_of_functionValue? hc hvalue) hd heq
    simp [Cursor.declaresFunction_of_functionValue? hvalue] at hdeclares'
  · -- a value belongs to the variable above it
    obtain rfl := eq_of_address_eq (mem_preorder_of_functionValue? hc hvalue)
      (mem_preorder_of_functionValue? hd hvalue') heq
    have hparent := Cursor.parent?_of_mem_children (Cursor.mem_children_of_functionValue? hvalue)
    have hparent' := Cursor.parent?_of_mem_children (Cursor.mem_children_of_functionValue? hvalue')
    exact hne (Option.some.inj (hparent.symm.trans hparent'))

theorem recordsOnce_preorder (options : OutlineOptions) (s : Source) (root : Node) :
    RecordsOnce options s (root.preorder .root) where
  values c hc v hvalue := by
    have hdeclarator := (Cursor.functionValue?_eq_some_iff.1 hvalue).1
    have hrecord := Cursor.record?_of_isDeclarator hdeclarator s
    rw [hvalue, Option.map_some] at hrecord
    exact ⟨mem_preorder_of_functionValue? hc hvalue,
      contribution_of_none (Cursor.record?_of_functionValue? hvalue s),
      contribution_of_function hrecord⟩
  others c hc hvalue f hf := by
    rcases Cursor.exists_of_record?_eq_function (mem_functions_contribution.1 hf) with
      ⟨hdeclares, rfl⟩ | ⟨v, hv, -⟩
    · exact ⟨Cursor.recorded?_eq_some_iff.2 (.inl ⟨hdeclares, rfl⟩), rfl⟩
    · rw [hvalue] at hv
      cases hv
  counts c hc := length_functions_contribution options s c
  distinct := nodup_recorded root

end Preorder

/-- **The walk with a stack is the recursive traversal, and no function is recorded twice.**
Whatever a visit does, the walk visits every node of the tree once, in pre-order; so the lists of a
script are the contributions of its nodes in that order. -/
theorem declarations_in_preorder (options : OutlineOptions) (s : Source) (root : Node) :
    (∀ {α : Type} (visit : α → Cursor → α) (acc : α),
      Cursor.walk visit acc [⟨root, .root⟩] = (root.preorder .root).foldl visit acc) ∧
    ListsOnce root (root.preorder .root) ∧
    Concatenates options s (root.preorder .root) (declarations options s root) ∧
    RecordsOnce options s (root.preorder .root) := by
  refine ⟨fun visit acc => ?_, listsOnce_preorder root, ?_, recordsOnce_preorder options s root⟩
  · rw [Cursor.walk_eq_foldl, List.flatMap_singleton, Cursor.preorder]
  · rw [declarations_eq_foldl, foldl_visit]
    exact ⟨rfl, rfl, rfl, rfl, fun c _ => count_contribution_le c⟩

end Script

end CodeIndex
