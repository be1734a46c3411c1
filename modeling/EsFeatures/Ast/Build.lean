/-
  EsFeatures.Ast.Build

  The conversion of a whole concrete tree.  A stack of its own holds what is still to
  be done, each item with the list that it is to be appended to, so that no depth of
  nesting is too deep for it.  Nodes under construction lie in a store and know their
  children by address: a node is appended to its list before its own children are
  converted, and many lists grow at once.
-/
import EsFeatures.Ast.Weight

namespace EsFeatures.Ast

/-- A list under construction: the one at the top, or the children of the node at an
    address. -/
inductive Target where
  | top
  | below (address : Nat)
deriving Repr, DecidableEq

/-- What waits on the stack: a concrete tree to convert, or a node already made. -/
inductive Item where
  | tree (tree : Cst)
  | node (address : Nat)

/-- An item with the list that it is to be appended to. -/
structure Work where
  item : Item
  target : Target

/-- A node in the store, with the addresses of its children so far. -/
structure Cell where
  head : Head
  children : Array Nat := #[]

/-- A conversion under way. -/
structure Machine where
  top : Array Nat := #[]
  cells : Array Cell := #[]
  stack : List Work

/-- The weight of a stack. -/
def Work.weights : List Work → Nat
  | [] => 0
  | ⟨.tree tree, _⟩ :: rest => 2 * tree.size + Work.weights rest
  | ⟨.node _, _⟩ :: rest => 1 + Work.weights rest

/-- Stores the nodes that a piece of work below the node at `parent` has already made,
    and gives the items that it puts on the stack. -/
def place (parent : Nat) (cells : Array Cell) : Pending → Array Cell × List Work
  | .convert tree => (cells, [⟨.tree tree, .below parent⟩])
  | .element head => (cells.push { head }, [⟨.node cells.size, .below parent⟩])
  | .declaration head declarator inside =>
    let address := cells.size
    ((cells.push { head, children := #[address + 1] }).push { head := declarator },
      ⟨.node address, .below parent⟩ ::
        inside.map fun tree => ⟨.tree tree, .below (address + 1)⟩)

/-- The same for a list of work, in order. -/
def placeAll (parent : Nat) (cells : Array Cell) : List Pending → Array Cell × List Work
  | [] => (cells, [])
  | item :: rest =>
    let (cells, first) := place parent cells item
    let (cells, later) := placeAll parent cells rest
    (cells, first ++ later)

namespace Machine

/-- The conversion of a tree before its first round. -/
def start (tree : Cst) : Machine :=
  { stack := [⟨.tree tree, .top⟩] }

/-- Appends the node at an address to a list. -/
def append (m : Machine) (target : Target) (address : Nat) : Machine :=
  match target with
  | .top => { m with top := m.top.push address }
  | .below parent =>
    { m with cells := m.cells.modify parent fun cell =>
        { cell with children := cell.children.push address } }

/-- Stores a new node and the nodes made below it, and puts the work below it on the
    stack. -/
def unfold (m : Machine) (head : Head) (items : List Pending) : Machine :=
  let address := m.cells.size
  let (cells, works) := placeAll address (m.cells.push { head }) items
  { m with cells, stack := works ++ m.stack }

/-- One round: the item on top of the stack is taken up.  There is none when the stack
    is empty. -/
def step (ctx : Context) (m : Machine) : Option (Except Failure Machine) :=
  match m.stack with
  | [] => none
  | ⟨.node address, target⟩ :: stack => some (.ok ({ m with stack }.append target address))
  | ⟨.tree tree, target⟩ :: stack =>
    match expand ctx tree with
    | .error e => some (.error e)
    | .ok none => some (.ok { m with stack })
    | .ok (some (head, items)) =>
      some (.ok (({ m with stack }.unfold head items).append target m.cells.size))

end Machine

theorem Work.weights_append (xs ys : List Work) :
    Work.weights (xs ++ ys) = Work.weights xs + Work.weights ys := by
  fun_induction Work.weights xs with
  | case1 => simp
  | case2 tree target rest ih => simp only [List.cons_append, Work.weights, ih]; omega
  | case3 address target rest ih => simp only [List.cons_append, Work.weights, ih]; omega

theorem weights_place (parent : Nat) (cells : Array Cell) (item : Pending) :
    Work.weights (place parent cells item).2 = item.weight := by
  cases item with
  | convert tree => rfl
  | element head => rfl
  | declaration head declarator inside =>
    simp only [place, Work.weights, Pending.weight]
    congr 1
    induction inside with
    | nil => rfl
    | cons t ts ih => simp only [List.map_cons, Work.weights, Cst.sizes, ih]; omega

theorem weights_placeAll (parent : Nat) (cells : Array Cell) (items : List Pending) :
    Work.weights (placeAll parent cells items).2 = Pending.weights items := by
  induction items generalizing cells with
  | nil => rfl
  | cons item rest ih =>
    simp only [placeAll, Work.weights_append, weights_place, ih, Pending.weights]

namespace Machine

@[simp] theorem stack_append (m : Machine) (target : Target) (address : Nat) :
    (m.append target address).stack = m.stack := by
  cases target <;> rfl

/-- Every round takes weight off the stack. -/
theorem weights_step_lt {ctx : Context} {m m' : Machine} (h : m.step ctx = some (.ok m')) :
    Work.weights m'.stack < Work.weights m.stack := by
  unfold step at h
  split at h
  · cases h
  · rename_i address target stack hstack
    cases h
    rw [hstack, stack_append]
    simp only [Work.weights]
    omega
  · rename_i tree target stack hstack
    have hsize := size_eq tree
    split at h
    · cases h
    · cases h
      rw [hstack]
      simp only [Work.weights]
      omega
    · rename_i head items hexpand
      cases h
      have hitems := weights_expand_lt hexpand
      rw [hstack]
      simp only [Machine.unfold, Work.weights_append, weights_placeAll, stack_append, Work.weights]
      omega

/-- Takes up one item after the other until the stack is empty. -/
def run (ctx : Context) (m : Machine) : Except Failure Machine :=
  match _ : m.step ctx with
  | none => .ok m
  | some (.error e) => .error e
  | some (.ok m') => run ctx m'
termination_by Work.weights m.stack
decreasing_by exact weights_step_lt ‹_›

/-- Adds the tree of a node to those of the nodes behind it, last first, in a store of
    the given size. -/
def read (size : Nat) (cell : Cell) (done : Array Ast) : Array Ast :=
  done.push (.node cell.head
    (cell.children.toList.map fun address => done.getD (size - 1 - address) default))

/-- The trees of the nodes in the store, last first.  A node stands in the store before
    its children, so these are finished when it is read. -/
def trees (m : Machine) : Array Ast :=
  m.cells.foldr (read m.cells.size) #[]

/-- The tree of the node at an address. -/
def tree (m : Machine) (address : Nat) : Ast :=
  m.trees.getD (m.cells.size - 1 - address) default

end Machine

/-- The tree of a source in which nothing stands. -/
def emptyProgram (source : String) : Ast :=
  .node { kind := "Program", start := some 0, stop := some source.length } []

/-- The abstract tree of a concrete one. -/
def build (source : String) (tree : Cst) : Except Failure Ast := do
  let m ← (Machine.start tree).run (.ofSource source)
  match m.top[0]? with
  | some address => return m.tree address
  | none => return emptyProgram source

end EsFeatures.Ast
