/-
  EsFeatures.Cst.Faults

  The search for places where a source breaks the grammar.  It walks the tree in
  document order, goes down only where a node is marked, and stops below a given
  depth.
-/
import EsFeatures.Cst.Basic
import EsFeatures.Text.ByteMap

namespace EsFeatures.Cst

open Text (ByteMap)

/-- A faulty node with its depth and the start of its text. -/
structure Fault where
  label : Label
  depth : Int
  text : String
deriving Repr, DecidableEq

/-- The longest text of a fault that is shown whole. -/
def faultTextWidth : Nat := 100

/-- The text of a faulty node, cut when it is long. -/
def faultText (map : ByteMap) (label : Label) : String :=
  let text := map.text label.startByte label.endByte
  if text.length > faultTextWidth then
    String.ofList (text.toList.take faultTextWidth) ++ "..."
  else text

mutual

/-- Adds to `found` the faulty nodes of a tree whose root lies at `depth`, down to
    `maxDepth`. -/
def addFaults (map : ByteMap) (maxDepth depth : Int) (found : Array Fault) : Cst → Array Fault
  | .node label children =>
    if depth > maxDepth then found
    else if label.kind == "ERROR" || label.missing then
      addFaultsIn map maxDepth (depth + 1) (found.push ⟨label, depth, faultText map label⟩) children
    else addFaultsIn map maxDepth (depth + 1) found children

/-- Adds to `found` the faulty nodes below the marked ones of a list of trees. -/
def addFaultsIn (map : ByteMap) (maxDepth depth : Int) (found : Array Fault) :
    List Cst → Array Fault
  | [] => found
  | .node label children :: rest =>
    if label.hasError || label.missing then
      addFaultsIn map maxDepth depth
        (addFaults map maxDepth depth found (.node label children)) rest
    else addFaultsIn map maxDepth depth found rest

end

/-- The faulty nodes of a tree whose root lies at `depth`, down to `maxDepth`. -/
def faults (map : ByteMap) (maxDepth depth : Int) (tree : Cst) : List Fault :=
  (addFaults map maxDepth depth #[] tree).toList

/-- The depth to which faults are searched unless another one is given. -/
def defaultFaultDepth : Int := 200

end EsFeatures.Cst
