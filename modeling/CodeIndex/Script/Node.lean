import CodeIndex.Utf8

/-!
# Syntax trees of scripts

A node of a syntax tree has a kind, a range of bytes of the source, and children, which may be named
or mere punctuation and may play a role in their parent (a field). `Cursor` is a node together with
its place in the tree: its parents, and the siblings before it. `Cursor.walk` visits the nodes of a
tree.
-/

namespace CodeIndex.Script

/-- A node of a syntax tree. -/
inductive Node where
  | mk (kind : Text) (start stop row : Nat) (named : Bool) (field : Option Text)
      (children : List Node)
  deriving Inhabited

namespace Node

/-- The kind of a node. -/
def kind : Node → Text | mk k _ _ _ _ _ _ => k

/-- The first byte of a node. -/
def start : Node → Nat | mk _ s _ _ _ _ _ => s

/-- The byte after the last byte of a node. -/
def stop : Node → Nat | mk _ _ e _ _ _ _ => e

/-- The row, from 0, on which a node starts. -/
def row : Node → Nat | mk _ _ _ r _ _ _ => r

/-- The node is no mere punctuation. -/
def isNamed : Node → Bool | mk _ _ _ _ n _ _ => n

/-- The role of a node in its parent. -/
def field : Node → Option Text | mk _ _ _ _ _ f _ => f

/-- The children of a node in order. -/
def children : Node → List Node | mk _ _ _ _ _ _ cs => cs

/-- The named children of a node. -/
def namedChildren (n : Node) : List Node := n.children.filter (·.isNamed)

/-- The first child with a role. -/
def childByField? (n : Node) (field : String) : Option Node :=
  n.children.find? fun c => c.field = some field.toList

/-- The node is of a kind. -/
def is (n : Node) (kind : String) : Bool := n.kind = kind.toList

/-- The node is of one of some kinds. -/
def isAny (n : Node) (kinds : List String) : Bool := kinds.any n.is

/-- A comment or a decorator: it belongs to what follows. -/
def isTrivia (n : Node) : Bool := n.isAny ["comment", "decorator"]

mutual

/-- The number of nodes of a tree. -/
def size : Node → Nat
  | mk _ _ _ _ _ _ cs => 1 + sizeAll cs

/-- The number of nodes of some trees. -/
def sizeAll : List Node → Nat
  | [] => 0
  | c :: cs => size c + sizeAll cs

end

end Node

/-- Where a node stands: it is the root, or it is a child of a parent, after some siblings, the
nearest of which comes first. -/
inductive Place where
  | root
  | child (parent : Node) (before : List Node) (above : Place)

/-- A node and its place. -/
structure Cursor where
  node : Node
  place : Place

namespace Cursor

/-- The parent of a node. -/
def parent? (c : Cursor) : Option Cursor :=
  match c.place with
  | .root => none
  | .child parent _ above => some ⟨parent, above⟩

/-- The siblings before a node, the nearest first. -/
def before (c : Cursor) : List Node :=
  match c.place with
  | .root => []
  | .child _ before _ => before

/-- Children of `parent` from some point on, each with its place, after the siblings `before`. -/
def childrenFrom (parent : Node) (above : Place) : (before : List Node) → List Node → List Cursor
  | _, [] => []
  | before, n :: ns => ⟨n, .child parent before above⟩ :: childrenFrom parent above (n :: before) ns

/-- The children of a node, each with its place. -/
def children (c : Cursor) : List Cursor := childrenFrom c.node c.place [] c.node.children

/-- The number of nodes below some cursors, themselves included. -/
def sizeAll : List Cursor → Nat
  | [] => 0
  | c :: cs => c.node.size + sizeAll cs

theorem sizeAll_append (a b : List Cursor) : sizeAll (a ++ b) = sizeAll a + sizeAll b := by
  induction a with
  | nil => simp [sizeAll]
  | cons c cs ih => simp only [List.cons_append, sizeAll, ih]; omega

theorem sizeAll_childrenFrom (parent : Node) (above : Place) (before ns : List Node) :
    sizeAll (childrenFrom parent above before ns) = Node.sizeAll ns := by
  induction ns generalizing before with
  | nil => rfl
  | cons n ns ih => simp [childrenFrom, sizeAll, Node.sizeAll, ih]

theorem sizeAll_children (c : Cursor) : sizeAll c.children + 1 = c.node.size := by
  obtain ⟨⟨_, _, _, _, _, _, cs⟩, place⟩ := c
  rw [children, sizeAll_childrenFrom, Node.size]
  simp only [Node.children]; omega

/-- Visits all nodes from a stack of nodes still to be visited, each before its children, with `acc`
as the outcome of the visits so far. -/
def walk {α : Type} (visit : α → Cursor → α) (acc : α) : (stack : List Cursor) → α
  | [] => acc
  | c :: stack => walk visit (visit acc c) (c.children ++ stack)
termination_by stack => sizeAll stack
decreasing_by
  rw [sizeAll_append, sizeAll]
  have := sizeAll_children c
  omega

end Cursor

end CodeIndex.Script
