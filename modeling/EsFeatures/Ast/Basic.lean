/-
  EsFeatures.Ast.Basic

  Abstract syntax trees: the constructs of a source with their ESTree kinds, the
  characters that they span, a few attributes and their children in source
  order.
-/
import EsFeatures.Scalar

namespace EsFeatures

/-- What a node says about itself.  Either end of the span may be unknown. -/
structure Ast.Head where
  kind : String
  start : Option Int := none
  stop : Option Int := none
  attrs : List (String × Scalar) := []
deriving Repr, DecidableEq, Inhabited

/-- An abstract syntax tree. -/
inductive Ast where
  | node (head : Ast.Head) (children : List Ast)
deriving Repr, Inhabited

namespace Ast

/-- The value of an attribute, null when the node does not have it. -/
def Head.get (head : Head) (name : String) : Scalar :=
  (head.attrs.lookup name).getD .null

/-- The head of the root. -/
def head : Ast → Head
  | .node head _ => head

/-- The subtrees below the root, in source order. -/
def children : Ast → List Ast
  | .node _ children => children

@[simp] theorem children_node (h : Head) (cs : List Ast) : (Ast.node h cs).children = cs := rfl

/-- The kind of the root. -/
def kind (tree : Ast) : String := tree.head.kind

/-- The value of an attribute of the root. -/
def get (tree : Ast) (name : String) : Scalar := tree.head.get name

mutual

/-- The number of nodes of a tree. -/
def size : Ast → Nat
  | .node _ children => 1 + sizes children

/-- The number of nodes of a list of trees. -/
def sizes : List Ast → Nat
  | [] => 0
  | tree :: rest => size tree + sizes rest

end

mutual

/-- The nodes of a tree, each before those below it, in source order. -/
def preorder : Ast → List Ast
  | .node head children => .node head children :: preorders children

/-- The nodes of a list of trees, in the same order. -/
def preorders : List Ast → List Ast
  | [] => []
  | tree :: rest => preorder tree ++ preorders rest

end

theorem sizes_append (xs ys : List Ast) : sizes (xs ++ ys) = sizes xs + sizes ys := by
  induction xs with
  | nil => simp [sizes]
  | cons x xs ih => simp only [List.cons_append, sizes, ih]; omega

theorem sizes_children_lt (tree : Ast) : sizes tree.children < size tree := by
  cases tree with
  | node h cs => simp only [children, size]; omega

end Ast

end EsFeatures
