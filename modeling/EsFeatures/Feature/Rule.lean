/-
  EsFeatures.Feature.Rule

  Which nodes show which feature.  A rule belongs to a kind of node; its guard
  says which nodes of that kind count, and its qualifier what is noted with them.
-/
import EsFeatures.Ast.Basic
import EsFeatures.Feature.Catalog

namespace EsFeatures

/-- How one kind of node shows a feature. -/
structure Rule where
  feature : Feature
  guard : Ast → Bool := fun _ => true
  qualifier : Ast → Scalar := fun _ => .null

/-- Rules by the kind of node they belong to. -/
abbrev RuleTable := List (String × Rule)

namespace Rule

/-- Whether a declaration is scoped to its block. -/
def isBlockScoped (tree : Ast) : Bool :=
  tree.get "kind" == .text "const" || tree.get "kind" == .text "let"

/-- The keyword of a declaration. -/
def declarationKind (tree : Ast) : Scalar :=
  tree.get "kind"

/-- Whether a function is asynchronous. -/
def isAsync (tree : Ast) : Bool :=
  (tree.get "async").isSet

end Rule

/-- The rules of the features.  Of functions, only declarations that are
    asynchronous count; of declarations, only those scoped to their block. -/
def standardRules : RuleTable :=
  [("ArrowFunctionExpression", { feature := .arrowFunction }),
   ("VariableDeclaration",
     { feature := .variableDeclaration
       guard := Rule.isBlockScoped
       qualifier := Rule.declarationKind }),
   ("AwaitExpression", { feature := .awaitExpression }),
   ("YieldExpression", { feature := .yieldExpression }),
   ("ClassDeclaration", { feature := .classDeclaration }),
   ("FunctionDeclaration", { feature := .asyncFunction, guard := Rule.isAsync }),
   ("TemplateElement", { feature := .templateElement }),
   ("SpreadElement", { feature := .spreadElement }),
   ("RestElement", { feature := .restElement }),
   ("ForOfStatement", { feature := .forOfStatement })]

/-- The kind of node on which a feature is found. -/
def kindOf (feature : Feature) : String :=
  ((standardRules.find? fun entry => entry.2.feature == feature).map (·.1)).getD ""

end EsFeatures
