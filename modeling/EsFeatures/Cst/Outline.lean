/-
  EsFeatures.Cst.Outline

  A concrete tree for people to look at: a line for each node, indented by its
  depth, with its kind, its bytes and the start of its text.
-/
import EsFeatures.Cst.Basic
import EsFeatures.Text.Abridged
import EsFeatures.Text.ByteMap
import EsFeatures.Text.Quoted

namespace EsFeatures.Cst

open Text (ByteMap)

/-- The blanks in front of a line about a node at the given depth. -/
def indent (depth : Nat) : String :=
  String.ofList (List.replicate (2 * depth) ' ')

/-- The bytes of a node, in brackets. -/
def Label.extent (label : Label) : String :=
  s!"[{label.startByte}:{label.endByte}]"

/-- The line of a node. -/
def outlineLine (map : ByteMap) (depth : Nat) (label : Label) : String :=
  let text := Text.truncateText (map.text label.startByte label.endByte) Text.dumpWidth
  indent depth ++ label.kind ++ " " ++ label.extent ++ " " ++ Text.quoted text ++ "\n"

mutual

/-- The lines of a tree whose root lies at `depth`, down to `maxDepth`. -/
def outline (map : ByteMap) (maxDepth depth : Nat) : Cst → List String
  | .node label children =>
    if depth > maxDepth then []
    else outlineLine map depth label :: outlineAll map maxDepth (depth + 1) children

/-- The lines of a list of trees at the same depth. -/
def outlineAll (map : ByteMap) (maxDepth depth : Nat) : List Cst → List String
  | [] => []
  | tree :: rest => outline map maxDepth depth tree ++ outlineAll map maxDepth depth rest

end

/-- The depth down to which a tree is shown. -/
def outlineDepth : Nat := 10

end EsFeatures.Cst
