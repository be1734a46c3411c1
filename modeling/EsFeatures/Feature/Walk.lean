/-
  EsFeatures.Feature.Walk

  The walk over a tree that tries the rules on every node.  It visits the whole
  tree whatever is found; the collector alone decides what is kept.
-/
import EsFeatures.Feature.Collector
import EsFeatures.Feature.Rule

namespace EsFeatures

/-- A node that a rule reports. -/
structure Match where
  feature : Feature
  node : Ast
  qualifier : Scalar

/-- What a table of rules says about a node. -/
def RuleTable.match? (rules : RuleTable) (node : Ast) : Option Match :=
  match rules.lookup node.kind with
  | some rule => if rule.guard node then some ⟨rule.feature, node, rule.qualifier node⟩ else none
  | none => none

/-- The state of a walk: how many nodes it has visited, what the rules reported,
    and what was collected. -/
structure Walk where
  visited : Nat := 0
  matched : Array Match := #[]
  collector : Collector

namespace Walk

/-- Visits one node. -/
def visit (rules : RuleTable) (walk : Walk) (node : Ast) : Walk :=
  match rules.match? node with
  | some found =>
    { visited := walk.visited + 1
      matched := walk.matched.push found
      collector := walk.collector.report found.feature found.node.head found.qualifier }
  | none => { walk with visited := walk.visited + 1 }

/-- Visits the nodes of a stack of trees, each before those below it. -/
def run (rules : RuleTable) (walk : Walk) (stack : List Ast) : Walk :=
  match stack with
  | [] => walk
  | node :: rest => run rules (walk.visit rules node) (node.children ++ rest)
termination_by Ast.sizes stack
decreasing_by
  have := Ast.sizes_children_lt node
  rw [Ast.sizes_append, Ast.sizes]
  omega

/-- Walks over a tree with a table of rules. -/
def ofTree (rules : RuleTable) (collector : Collector) (tree : Ast) : Walk :=
  run rules { collector } [tree]

end Walk

end EsFeatures
