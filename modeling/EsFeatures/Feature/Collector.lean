/-
  EsFeatures.Feature.Collector

  Findings and their collection up to a limit.
-/
import EsFeatures.Ast.Basic
import EsFeatures.Feature.Catalog
import EsFeatures.Feature.Options
import EsFeatures.Text.Slice

namespace EsFeatures

/-- One place where a feature is used. -/
structure Finding where
  feature : Feature
  label : String
  qualifier : Scalar
  snippet : String
  offset : Int
deriving Repr, DecidableEq

/-- The findings of one detection so far. -/
structure Collector where
  source : String
  options : Options := {}
  findings : Array Finding := #[]

namespace Collector

/-- Whether no more findings are kept. -/
def isFull (c : Collector) : Bool :=
  c.options.resultLimit ≤ c.findings.size

/-- The source text of a node, cut to the longest snippet; empty when the node's
    span is not known. -/
def snippet (c : Collector) (head : Ast.Head) : String :=
  match head.start, head.stop with
  | some start, some stop =>
    if stop - start ≤ c.options.snippetMaxLength then Text.substring c.source start stop
    else Text.substring c.source start (start + c.options.snippetMaxLength)
  | _, _ => ""

/-- The offset of a finding whose node has none. -/
def unknownOffset : Int := -1

/-- What is noted of a node that shows a feature. -/
def finding (c : Collector) (feature : Feature) (head : Ast.Head) (qualifier : Scalar) : Finding :=
  { feature
    label := feature.label
    qualifier
    snippet := c.snippet head
    offset := head.start.getD unknownOffset }

/-- Notes a node unless the collector is full. -/
def report (c : Collector) (feature : Feature) (head : Ast.Head) (qualifier : Scalar) : Collector :=
  if c.isFull then c
  else { c with findings := c.findings.push (c.finding feature head qualifier) }

end Collector

end EsFeatures
