/-
  EsFeatures.Cst.Basic

  Concrete syntax trees of JavaScript sources: every token and every construct
  with its kind, its bytes in the source and the field under which its parent
  knows it.  Tokens such as `async` or `;` are anonymous, constructs are named.
  A tree may also hold error nodes and tokens that the source lacks.
-/

namespace EsFeatures

/-- What a node says about itself. -/
structure Cst.Label where
  kind : String
  startByte : Nat
  endByte : Nat
  named : Bool := true
  missing : Bool := false
  hasError : Bool := false
  field : Option String := none
deriving Repr, DecidableEq, Inhabited

/-- A concrete syntax tree. -/
inductive Cst where
  | node (label : Cst.Label) (children : List Cst)
deriving Repr, Inhabited

namespace Cst

/-- The label of the root. -/
def label : Cst → Label
  | .node label _ => label

/-- The subtrees below the root, in source order. -/
def children : Cst → List Cst
  | .node _ children => children

@[simp] theorem label_node (l : Label) (cs : List Cst) : (Cst.node l cs).label = l := rfl

@[simp] theorem children_node (l : Label) (cs : List Cst) : (Cst.node l cs).children = cs := rfl

/-- The kind of the root. -/
def kind (tree : Cst) : String := tree.label.kind

/-- The byte at which the root starts. -/
def startByte (tree : Cst) : Nat := tree.label.startByte

/-- The byte after the root's last one. -/
def endByte (tree : Cst) : Nat := tree.label.endByte

/-- The children that are constructs. -/
def namedChildren (tree : Cst) : List Cst :=
  tree.children.filter (·.label.named)

/-- Whether the root stands under the field `name` of its parent. -/
def hasField (name : String) (tree : Cst) : Bool :=
  tree.label.field == some name

/-- The first child that stands under the field `name`. -/
def child? (tree : Cst) (name : String) : Option Cst :=
  tree.children.find? (hasField name)

/-- Whether a child is the anonymous token `token`. -/
def hasToken (tree : Cst) (token : String) : Bool :=
  tree.children.any fun child => !child.label.named && child.kind == token

/-- Whether the root marks a place where the source breaks the grammar. -/
def isFault (tree : Cst) : Bool :=
  tree.kind == "ERROR" || tree.label.missing

/-- The tree with its root under the field `name`. -/
def withField (name : String) : Cst → Cst
  | .node label children => .node { label with field := some name } children

mutual

/-- The number of nodes of a tree. -/
def size : Cst → Nat
  | .node _ children => 1 + sizes children

/-- The number of nodes of a list of trees. -/
def sizes : List Cst → Nat
  | [] => 0
  | tree :: rest => size tree + sizes rest

end

end Cst

end EsFeatures
