/-
  EsFeatures.Script.Target

  Expressions read again as targets.  Only behind `=`, `=>`, `of` or `in` does a
  reader learn that what it took for a literal takes a value apart; the literal
  is then turned into the pattern of the same shape.
-/
import EsFeatures.Script.Reader

namespace EsFeatures.Script

/-- A tree with another kind and other parts in the same place. -/
def reshape (tree : Cst) (kind : String) (parts : List Cst) : Cst :=
  .node { tree.label with kind } parts

/-- Whether an expression is a target as it stands. -/
def isPlainTarget (tree : Cst) : Bool :=
  tree.kind == "identifier" || tree.kind == "member_expression" ||
  tree.kind == "subscript_expression" || tree.kind == "undefined"

mutual

/-- The target that an expression spells, if it spells one. -/
def toTarget? (tree : Cst) : Option Cst :=
  match tree with
  | .node label parts =>
    let same := Cst.node label parts
    match label.kind with
    | "array" => (toTargets? parts).map (reshape same "array_pattern")
    | "object" => (toTargets? parts).map (reshape same "object_pattern")
    | "spread_element" => (toRestTarget? parts).map (reshape same "rest_pattern")
    | "assignment_expression" => (toFirstTarget? parts).map (reshape same "assignment_pattern")
    | "pair" => (toValueTarget? parts).map (reshape same "pair_pattern")
    | "shorthand_property_identifier" =>
      some (reshape same "shorthand_property_identifier_pattern" parts)
    | "object_assignment_pattern" => some same
    | "array_pattern" => some same
    | "object_pattern" => some same
    | _ => if isPlainTarget same then some same else none

/-- The targets that the parts of a literal spell; marks stay as they are. -/
def toTargets? (trees : List Cst) : Option (List Cst) :=
  match trees with
  | [] => some []
  | .node label parts :: rest =>
    if label.named then do
      let target ← toTarget? (.node label parts)
      let targets ← toTargets? rest
      return target :: targets
    else do
      let targets ← toTargets? rest
      return .node label parts :: targets

/-- The parts of an assignment with its left side as a target. -/
def toFirstTarget? (trees : List Cst) : Option (List Cst) :=
  match trees with
  | [] => none
  | tree :: rest => (toTarget? tree).map (· :: rest)

/-- The parts of a property with its value as a target. -/
def toValueTarget? (trees : List Cst) : Option (List Cst) :=
  match trees with
  | [name, mark, value] => (toTarget? value).map fun target => [name, mark, target]
  | _ => none

/-- Three dots and the target that takes the rest, which has no default. -/
def toRestTarget? (trees : List Cst) : Option (List Cst) :=
  match trees with
  | [dots, value] =>
    if value.kind == "assignment_expression" then none
    else (toTarget? value).map fun target => [dots, target]
  | _ => none

end

/-- The left side of an assignment or the variable of a loop.  Parentheses may
    stand around the whole of it only. -/
def expectTarget (tree : Cst) : Reader Cst :=
  if tree.kind == "parenthesized_expression" then pure tree
  else if tree.kind == "assignment_expression" || tree.kind == "spread_element" then giveUp
  else
    match toTarget? tree with
    | some target => pure target
    | none => giveUp

/-- The parameters of an arrow function from the parts between its parentheses. -/
def expectParameters (parts : List Cst) : Reader Cst :=
  match toTargets? parts with
  | some targets => pure (branch "formal_parameters" targets)
  | none => giveUp

mutual

/-- Whether a tree holds an object literal with a default, which only a pattern
    may have. -/
def hasStrayDefault (tree : Cst) : Bool :=
  match tree with
  | .node label parts =>
    (label.kind == "object" && parts.any (·.kind == "object_assignment_pattern")) ||
      anyStrayDefault parts

/-- Whether one of several trees holds such a literal. -/
def anyStrayDefault (trees : List Cst) : Bool :=
  match trees with
  | [] => false
  | tree :: rest => hasStrayDefault tree || anyStrayDefault rest

end

end EsFeatures.Script
