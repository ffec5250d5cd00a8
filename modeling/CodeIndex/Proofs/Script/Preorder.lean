import CodeIndex.Script.Outline

/-!
# Nodes in pre-order

The walk with a stack visits the nodes of a tree as a recursion over the tree lists them, each node
before its children (`walk_eq_foldl`). A node is told by its address, the list of the numbers of
siblings before the nodes on the way to it; the recursion lists every address of the tree once, in
lexicographic order (`listsOnce_preorder`).

* `Node.preorder` is the recursion, `Node.at?` the node at an address.
-/

namespace CodeIndex.Script

/-! ## Addresses -/

/-- The address of a place: how many siblings come before each node on the way to it. -/
def Place.address : Place → List Nat
  | .root => []
  | .child _ before above => above.address ++ [before.length]

namespace Node

/-- The node at an address below a node. -/
def at? (n : Node) : List Nat → Option Node
  | [] => some n
  | i :: a => n.children[i]?.bind (·.at? a)

theorem at?_cons_eq_some_iff {n m : Node} {i : Nat} {a : List Nat} :
    n.at? (i :: a) = some m ↔ ∃ c, n.children[i]? = some c ∧ c.at? a = some m := by
  rw [at?, Option.bind_eq_some_iff]

/-- **What holds of a node when it holds of its children holds of all trees.** -/
theorem induction {motive : Node → Prop}
    (h : ∀ n, (∀ c ∈ n.children, motive c) → motive n) (n : Node) : motive n :=
  match n with
  | mk k s e r named f cs => h _ fun c hc => by
    have : sizeOf c < sizeOf cs := List.sizeOf_lt_of_mem hc
    exact induction h c
termination_by sizeOf n
decreasing_by
  simp only [mk.sizeOf_spec]
  omega

end Node

/-! ## The recursion -/

mutual

/-- The nodes of a tree, each before its children, where the tree itself stands at a place. -/
def Node.preorder (place : Place) : Node → List Cursor
  | .mk k s e r named f cs =>
    ⟨.mk k s e r named f cs, place⟩ :: Node.preorderFrom (.mk k s e r named f cs) place [] cs

/-- The nodes of some children of `parent`, after the siblings `before`. -/
def Node.preorderFrom (parent : Node) (above : Place) (before : List Node) : List Node → List Cursor
  | [] => []
  | n :: ns =>
    n.preorder (.child parent before above) ++ Node.preorderFrom parent above (n :: before) ns

end

namespace Cursor

/-- The node and all nodes below it, each before its children. -/
def preorder (c : Cursor) : List Cursor := c.node.preorder c.place

theorem preorderFrom_eq (parent : Node) (above : Place) (before ns : List Node) :
    Node.preorderFrom parent above before ns =
      (childrenFrom parent above before ns).flatMap preorder := by
  induction ns generalizing before with
  | nil => rfl
  | cons n ns ih => rw [Node.preorderFrom, ih, childrenFrom, List.flatMap_cons, preorder]

theorem preorder_eq (c : Cursor) : c.preorder = c :: c.children.flatMap preorder := by
  obtain ⟨⟨k, s, e, r, named, f, cs⟩, place⟩ := c
  rw [preorder, Node.preorder, preorderFrom_eq]
  rfl

/-- **The walk with a stack visits the nodes as the recursion lists them.** -/
theorem walk_eq_foldl {α : Type} (visit : α → Cursor → α) (acc : α) (stack : List Cursor) :
    walk visit acc stack = (stack.flatMap preorder).foldl visit acc := by
  fun_induction walk visit acc stack with
  | case1 acc => rfl
  | case2 acc c stack ih =>
    rw [ih, List.flatMap_cons, preorder_eq, List.cons_append, List.foldl_cons, List.flatMap_append]

/-! ## Children and their places -/

theorem getElem?_childrenFrom (parent : Node) (above : Place) (before ns : List Node) (i : Nat) :
    (childrenFrom parent above before ns)[i]? =
      ns[i]?.map fun n => ⟨n, .child parent ((ns.take i).reverse ++ before) above⟩ := by
  induction ns generalizing before i with
  | nil => rfl
  | cons n ns ih =>
    cases i with
    | zero => rfl
    | succ i => simp [childrenFrom, ih]

theorem getElem?_children_eq_some_iff {c d : Cursor} {i : Nat} :
    c.children[i]? = some d ↔ ∃ n, c.node.children[i]? = some n ∧
      d = ⟨n, .child c.node (c.node.children.take i).reverse c.place⟩ := by
  simp only [children, getElem?_childrenFrom, List.append_nil, Option.map_eq_some_iff, @eq_comm _ d]

/-- The address of a child. -/
theorem address_of_getElem?_children {c d : Cursor} {i : Nat} (h : c.children[i]? = some d) :
    d.place.address = c.place.address ++ [i] := by
  obtain ⟨n, hn, rfl⟩ := getElem?_children_eq_some_iff.1 h
  have hi : i < c.node.children.length := (List.getElem?_eq_some_iff.1 hn).1
  simp [Place.address, Nat.min_eq_left (Nat.le_of_lt hi)]

theorem parent?_of_mem_children {c d : Cursor} (h : d ∈ c.children) : d.parent? = some c := by
  obtain ⟨i, hi⟩ := List.mem_iff_getElem?.1 h
  obtain ⟨n, -, rfl⟩ := getElem?_children_eq_some_iff.1 hi
  rfl

/-! ## The addresses that are listed -/

/-- A listed node is the one at its address. -/
theorem exists_address_of_mem_preorder {c d : Cursor} (h : d ∈ c.preorder) :
    ∃ a, d.place.address = c.place.address ++ a ∧ c.node.at? a = some d.node := by
  obtain ⟨node, place⟩ := c
  induction node using Node.induction generalizing place with
  | h node ih =>
    rw [preorder_eq] at h
    rcases List.mem_cons.1 h with rfl | h
    · exact ⟨[], by simp, rfl⟩
    · obtain ⟨e, he, hd⟩ := List.mem_flatMap.1 h
      obtain ⟨i, hi⟩ := List.mem_iff_getElem?.1 he
      obtain ⟨m, hm, rfl⟩ := getElem?_children_eq_some_iff.1 hi
      obtain ⟨a, ha, hnode⟩ := ih m (List.mem_of_getElem? hm) _ hd
      refine ⟨i :: a, ?_, Node.at?_cons_eq_some_iff.2 ⟨m, hm, hnode⟩⟩
      rw [ha, address_of_getElem?_children hi, List.append_assoc, List.singleton_append]

/-- The node at an address is listed. -/
theorem exists_mem_preorder_of_at? {c : Cursor} {a : List Nat} {n : Node}
    (h : c.node.at? a = some n) :
    ∃ d ∈ c.preorder, d.place.address = c.place.address ++ a ∧ d.node = n := by
  induction a generalizing c with
  | nil =>
    refine ⟨c, ?_, by simp, Option.some.inj h⟩
    rw [preorder_eq]
    exact List.mem_cons_self ..
  | cons i a ih =>
    obtain ⟨m, hm, h⟩ := Node.at?_cons_eq_some_iff.1 h
    obtain ⟨e, hchild, rfl⟩ : ∃ e : Cursor, c.children[i]? = some e ∧ e.node = m :=
      ⟨_, getElem?_children_eq_some_iff.2 ⟨m, hm, rfl⟩, rfl⟩
    obtain ⟨d, hd, haddress, hnode⟩ := ih h
    refine ⟨d, ?_, ?_, hnode⟩
    · rw [preorder_eq]
      exact List.mem_cons_of_mem _ (List.mem_flatMap.2 ⟨e, List.mem_of_getElem? hchild, hd⟩)
    · rw [haddress, address_of_getElem?_children hchild, List.append_assoc, List.singleton_append]

/-- **The recursion lists the nodes in the lexicographic order of their addresses.** -/
theorem pairwise_preorder (c : Cursor) :
    c.preorder.Pairwise fun d e => d.place.address < e.place.address := by
  obtain ⟨node, place⟩ := c
  induction node using Node.induction generalizing place with
  | h node ih =>
    rw [preorder_eq, List.pairwise_cons, List.pairwise_flatMap]
    refine ⟨fun d hd => ?_, fun e he => ?_, ?_⟩
    · -- what lies below a node has a longer address
      obtain ⟨e, he, hd⟩ := List.mem_flatMap.1 hd
      obtain ⟨i, hi⟩ := List.mem_iff_getElem?.1 he
      obtain ⟨a, ha, -⟩ := exists_address_of_mem_preorder hd
      rw [ha, address_of_getElem?_children hi, List.append_assoc]
      simpa using List.append_left_lt (List.nil_lt_cons i a)
    · obtain ⟨i, hi⟩ := List.mem_iff_getElem?.1 he
      obtain ⟨m, hm, rfl⟩ := getElem?_children_eq_some_iff.1 hi
      exact ih m (List.mem_of_getElem? hm) _
    · rw [List.pairwise_iff_getElem]
      intro i j hi hj hij d hd e he
      obtain ⟨a, ha, -⟩ := exists_address_of_mem_preorder hd
      obtain ⟨b, hb, -⟩ := exists_address_of_mem_preorder he
      rw [ha, hb, address_of_getElem?_children (List.getElem?_eq_getElem hi),
        address_of_getElem?_children (List.getElem?_eq_getElem hj), List.append_assoc,
        List.append_assoc]
      exact List.append_left_lt (List.cons_lt_cons_iff.2 (.inl hij))

/-- A listed node is the first one, or a child of a listed one. -/
theorem exists_parent_of_mem_preorder {c d : Cursor} (h : d ∈ c.preorder) :
    d = c ∨ ∃ p ∈ c.preorder, d ∈ p.children := by
  obtain ⟨node, place⟩ := c
  induction node using Node.induction generalizing place with
  | h node ih =>
    rw [preorder_eq] at h ⊢
    rcases List.mem_cons.1 h with rfl | h
    · exact .inl rfl
    · obtain ⟨e, he, hd⟩ := List.mem_flatMap.1 h
      obtain ⟨i, hi⟩ := List.mem_iff_getElem?.1 he
      obtain ⟨m, hm, rfl⟩ := getElem?_children_eq_some_iff.1 hi
      rcases ih m (List.mem_of_getElem? hm) _ hd with rfl | ⟨p, hp, hdp⟩
      · exact .inr ⟨_, List.mem_cons_self .., he⟩
      · exact .inr ⟨p, List.mem_cons_of_mem _ (List.mem_flatMap.2 ⟨_, he, hp⟩), hdp⟩

/-- The children of a listed node are listed. -/
theorem mem_preorder_of_mem_children {c d e : Cursor} (hd : d ∈ c.preorder) (he : e ∈ d.children) :
    e ∈ c.preorder := by
  obtain ⟨node, place⟩ := c
  induction node using Node.induction generalizing place with
  | h node ih =>
    rw [preorder_eq] at hd ⊢
    refine List.mem_cons_of_mem _ (List.mem_flatMap.2 ?_)
    rcases List.mem_cons.1 hd with rfl | hd
    · refine ⟨e, he, ?_⟩
      rw [preorder_eq]
      exact List.mem_cons_self ..
    · obtain ⟨f, hf, hd⟩ := List.mem_flatMap.1 hd
      obtain ⟨i, hi⟩ := List.mem_iff_getElem?.1 hf
      obtain ⟨m, hm, rfl⟩ := getElem?_children_eq_some_iff.1 hi
      exact ⟨_, hf, ih m (List.mem_of_getElem? hm) _ hd⟩

end Cursor

/-- The cursors are those of all nodes of a tree, each once, in the lexicographic order of their
addresses, and each stands below its parent. -/
structure ListsOnce (root : Node) (cursors : List Cursor) : Prop where
  increasing : cursors.Pairwise fun c d => c.place.address < d.place.address
  nodes : ∀ a n, root.at? a = some n ↔ ∃ c ∈ cursors, c.place.address = a ∧ c.node = n
  parents : ∀ c ∈ cursors, c = ⟨root, .root⟩ ∨ ∃ p ∈ cursors, c ∈ p.children

theorem ListsOnce.nodup {root : Node} {cursors : List Cursor} (h : ListsOnce root cursors) :
    (cursors.map (·.place.address)).Nodup := by
  refine List.pairwise_map.2 (h.increasing.imp ?_)
  intro c d hlt heq
  exact List.lt_irrefl _ (heq ▸ hlt)

/-- **The recursion lists every node of a tree once.** -/
theorem listsOnce_preorder (root : Node) : ListsOnce root (root.preorder .root) where
  increasing := Cursor.pairwise_preorder ⟨root, .root⟩
  nodes a n := by
    constructor
    · intro h
      obtain ⟨d, hd, haddress, hnode⟩ := Cursor.exists_mem_preorder_of_at? (c := ⟨root, .root⟩) h
      exact ⟨d, hd, haddress, hnode⟩
    · rintro ⟨c, hc, rfl, rfl⟩
      obtain ⟨a, ha, hnode⟩ := Cursor.exists_address_of_mem_preorder (c := ⟨root, .root⟩) hc
      rw [Place.address, List.nil_append] at ha
      rwa [ha]
  parents c hc := Cursor.exists_parent_of_mem_preorder (c := ⟨root, .root⟩) hc

end CodeIndex.Script
