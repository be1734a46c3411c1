/-
  EsFeatures.Detection

  The detection of features in one source: the concrete tree is checked for
  faults and converted, then the rules are tried on every node.
-/
import EsFeatures.Ast.Build
import EsFeatures.Console
import EsFeatures.Cst.Faults
import EsFeatures.Feature.Walk

namespace EsFeatures

open Text (ByteMap)

/-- What a fault says about its source. -/
def Cst.Fault.cause (fault : Cst.Fault) : SyntaxCause :=
  if fault.label.missing then .missing fault.label.kind
  else if fault.text.isEmpty then .unexpectedEnd
  else .unexpected fault.text

namespace Ast

/-- The failure of a tree that is marked as faulty: its first fault, or its start
    when no fault lies within reach. -/
def faultFailure (source : String) (tree : Cst) : Failure :=
  let ctx := Context.ofSource source
  let (place, cause) :=
    match Cst.faults ctx.map Cst.defaultFaultDepth 0 tree with
    | [] => (tree.startByte, SyntaxCause.unlocated)
    | fault :: _ => (fault.label.startByte, fault.cause)
  match ctx.toChar place with
  | .ok offset => .invalid (.locate source offset cause)
  | .error e => e

/-- The abstract tree of a concrete one that is free of faults. -/
def ofCst (source : String) (tree : Cst) : Except Failure Ast :=
  if tree.label.hasError then .error (faultFailure source tree)
  else build source tree

end Ast

/-- The outcome of a detection. -/
structure Detection where
  findings : List Finding
  visited : Nat
  kind : String
deriving Repr, DecidableEq

namespace Detection

/-- Detects features in a source with its concrete tree. -/
def ofSource (options : Options) (source : String) (tree : Cst) :
    Except Ast.Failure Detection := do
  let program ← Ast.ofCst source tree
  let walk := Walk.ofTree standardRules { source, options } program
  return { findings := walk.collector.findings.toList
           visited := walk.visited
           kind := program.kind }

/-- The debugging lines of a detection. -/
def trace (options : Options) (source : String) (d : Detection) : List String :=
  [s!"parse_js: {source.length} chars -> {d.kind}",
   s!"detect_es_features: visited {d.visited} nodes, kept {d.findings.length} finding(s) " ++
     s!"(limit={options.resultLimit}, snippet={options.snippetMaxLength})"]

end Detection

end EsFeatures
