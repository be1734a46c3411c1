/-
  EsFeatures.Feature.Catalog

  The constructs that are looked for, with their names and labels.
-/
import EsFeatures.Text.Quoted

namespace EsFeatures

/-- A construct of the language that is newer than its fifth edition. -/
inductive Feature where
  | arrowFunction
  | variableDeclaration
  | awaitExpression
  | yieldExpression
  | classDeclaration
  | asyncFunction
  | templateElement
  | spreadElement
  | restElement
  | forOfStatement
deriving Repr, DecidableEq, Inhabited

namespace Feature

/-- All features, in the order in which they are listed. -/
def all : List Feature :=
  [.arrowFunction, .variableDeclaration, .awaitExpression, .yieldExpression, .classDeclaration,
   .asyncFunction, .templateElement, .spreadElement, .restElement, .forOfStatement]

/-- The name of a feature in reports. -/
def name : Feature → String
  | .arrowFunction => "ArrowFunctionExpression"
  | .variableDeclaration => "VariableDeclaration"
  | .awaitExpression => "AwaitExpression"
  | .yieldExpression => "YieldExpression"
  | .classDeclaration => "ClassDeclaration"
  | .asyncFunction => "AsyncFunction"
  | .templateElement => "TemplateElement"
  | .spreadElement => "SpreadElement"
  | .restElement => "RestElement"
  | .forOfStatement => "ForOfStatement"

/-- The label of a feature for people. -/
def label : Feature → String
  | .arrowFunction => "arrow function"
  | .variableDeclaration => "const/let declaration"
  | .awaitExpression => "await expression"
  | .yieldExpression => "yield expression"
  | .classDeclaration => "class declaration"
  | .asyncFunction => "async function"
  | .templateElement => "template literal"
  | .spreadElement => "spread operator"
  | .restElement => "rest element"
  | .forOfStatement => "for...of loop"

/-- The feature with a given name. -/
def ofName? (name : String) : Option Feature :=
  all.find? (·.name == name)

/-- What is said of a name that no feature has. -/
def unknownMessage (name : String) : String :=
  Text.quoted name ++ " is not a valid FeatureType"

end Feature

end EsFeatures
