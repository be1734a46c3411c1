/-
  EsFeatures.Ast.KindName

  The kind of an abstract node from the kind of a concrete one: a table for the
  kinds with a name of their own, and otherwise the words of the concrete kind
  capitalised and run together.
-/
import EsFeatures.Text.LetterCase

namespace EsFeatures.Ast

/-- The words between underscores, capitalised and run together. -/
def pascalCase (kind : String) : String :=
  String.ofList ((kind.toList.splitOn '_').flatMap Text.capitalize)

/-- Concrete kinds with an abstract name of their own. -/
def kindNames : List (String × String) :=
  [("program", "Program"),
   ("statement_block", "BlockStatement"),
   ("arrow_function", "ArrowFunctionExpression"),
   ("function_expression", "FunctionExpression"),
   ("function", "FunctionExpression"),
   ("generator_function", "FunctionExpression"),
   ("class_declaration", "ClassDeclaration"),
   ("class", "ClassExpression"),
   ("await_expression", "AwaitExpression"),
   ("yield_expression", "YieldExpression"),
   ("spread_element", "SpreadElement"),
   ("rest_pattern", "RestElement"),
   ("object", "ObjectExpression"),
   ("array", "ArrayExpression"),
   ("object_pattern", "ObjectPattern"),
   ("array_pattern", "ArrayPattern"),
   ("property_identifier", "Identifier"),
   ("shorthand_property_identifier", "Identifier"),
   ("shorthand_property_identifier_pattern", "Identifier"),
   ("private_property_identifier", "PrivateName"),
   ("string", "StringLiteral"),
   ("number", "NumericLiteral"),
   ("regex", "RegExpLiteral"),
   ("pair", "ObjectProperty"),
   ("pair_pattern", "ObjectProperty"),
   ("class_heritage", "ClassHeritage")]

/-- The abstract kind of a concrete one. -/
def kindName (kind : String) : String :=
  (kindNames.lookup kind).getD (pascalCase kind)

end EsFeatures.Ast
