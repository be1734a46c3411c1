/-
  EsFeatures.Script.Function

  Functions, classes, and the members of classes and object literals.
-/
import EsFeatures.Script.Binding

namespace EsFeatures.Script

/-! ## Functions -/

/-- Parameters in parentheses. -/
def parameters (parts : Parts) : Reader Cst := do
  let opening ← expectMark "("
  let items ← commaList ")" (bindingItem parts)
  return branch "formal_parameters" (opening :: items ++ [← takeLast])

/-- Statements in braces. -/
def block (parts : Parts) : Reader Cst := do
  let opening ← expectMark "\x7b"
  let statements ← collect do
    if ← atMark "\x7d" then return none
    return some [← parts .statement]
  return branch "statement_block" (opening :: statements ++ [← take])

/-- The name of a declared variable, function or class, if one is there. -/
def optionalName : Reader (List Cst) := do
  if (← current).isVariable then return [(← takeLastAs "identifier").withField "name"]
  else return []

/-- A function.  It is a declaration where one may stand and it has a name. -/
def function (parts : Parts) (declared : Bool) : Reader Cst := do
  let async ← optionalWord "async"
  let word ← expectWord "function"
  let star ← optionalMark "*"
  let name ← optionalName
  let params ← parameters parts
  let body ← block parts
  let kind :=
    if declared && !name.isEmpty then
      if star.isEmpty then "function_declaration" else "generator_function_declaration"
    else if star.isEmpty then "function_expression" else "generator_function"
  return branch kind (async ++ [word] ++ star ++ name ++ [params, body])

/-- Whether a function begins at the current token. -/
def atFunction : Reader Bool := do
  let t ← current
  if t.isWord "function" then return true
  if t.isWord "async" then
    let next ← peek
    return next.isWord "function" && !next.newline
  return false

/-- Whether a function with a name begins at the current token. -/
def atNamedFunction : Reader Bool := do
  if !(← atFunction) then return false
  let t ← current
  let word := if t.isWord "async" then t.next else t
  let behind := word.next
  return (if behind.isMark "*" then behind.next else behind).isVariable

/-! ## Members -/

/-- Whether a token behind a word tells that the word is the name of a member. -/
def endsMemberName (t : Token) : Bool :=
  t.sort == .endOfText || t.isMark "(" || t.isMark "," || t.isMark ";" || t.isMark "=" ||
  t.isMark ":" || t.isMark "\x7d"

/-- Whether a word puts the member behind it on the class itself. -/
def isStatic (word next : Token) : Bool :=
  word.isWord "static" && !endsMemberName next

/-- Whether a word makes the method behind it asynchronous. -/
def isAsync (word next : Token) : Bool :=
  word.isWord "async" && !endsMemberName next && !next.newline

/-- Whether a word makes the method behind it read or write a property. -/
def isAccessor (word next : Token) : Bool :=
  (word.isWord "get" || word.isWord "set") && !endsMemberName next && !next.isMark "*"

/-- The word in front of a member's name, if it has the given role. -/
def modifier (hasRole : Token → Token → Bool) : Reader (List Cst) := do
  let t ← current
  if hasRole t t.nextAfterLast then return [← takeLast] else return []

/-- What stands in front of a name that only a method can have. -/
def methodModifiers : Reader (List Cst) := do
  let async ← modifier isAsync
  let role ← do
    if ← atMark "*" then pure [← take] else modifier isAccessor
  return async ++ role

/-- A method behind its modifiers, from its parameters on. -/
def methodFrom (parts : Parts) (front : List Cst) : Reader Cst := do
  let params ← parameters parts
  let body ← block parts
  return branch "method_definition" (front ++ [params, body])

/-- A member of an object literal. -/
def objectMember (parts : Parts) : Reader Cst := do
  if ← atMark "..." then
    let dots ← take
    let value ← parts (.assignment true)
    return branch "spread_element" [dots, value]
  let words ← methodModifiers
  let first ← current
  let key ← propertyName parts
  if ← atMark "(" then methodFrom parts (words ++ [key.withField "name"])
  else if !words.isEmpty then giveUp
  else if ← atMark ":" then
    let colon ← take
    let value ← parts (.assignment true)
    return branch "pair" [key, colon, value]
  else if !first.isVariable then giveUp
  else if ← atMark "=" then
    let mark ← take
    let value ← parts (.assignment true)
    return branch "object_assignment_pattern"
      [leaf "shorthand_property_identifier_pattern" first, mark, value]
  else return leaf "shorthand_property_identifier" first

/-- An object literal. -/
def object (parts : Parts) : Reader Cst := do
  let opening ← expectMark "\x7b"
  let members ← commaList "\x7d" (objectMember parts)
  return branch "object" (opening :: members ++ [← take])

/-! ## Classes -/

/-- Arguments in parentheses. -/
def arguments (parts : Parts) : Reader Cst := do
  let opening ← take
  let items ← commaList ")" do
    if ← atMark "..." then
      let dots ← take
      let value ← parts (.assignment true)
      return branch "spread_element" [dots, value]
    else parts (.assignment true)
  return branch "arguments" (opening :: items ++ [← take])

/-- Adds members to a decorator's name. -/
def decoratorPath : Nat → Cst → Reader Cst
  | 0, _ => giveUp
  | rounds + 1, tree => do
    if ← atMark "." then
      let dot ← take
      let t ← current
      let name ←
        if t.sort = .privateName then takeLastAs "private_property_identifier"
        else if t.sort = .name then takeLastAs "property_identifier"
        else giveUp
      decoratorPath rounds (branch "member_expression" [tree, dot, name])
    else return tree

/-- A decorator. -/
def decorator (parts : Parts) : Reader Cst := do
  let at_ ← take
  if ← atMark "(" then
    let opening ← take
    let value ← parts (.expression true)
    let closing ← expectLastMark ")"
    return branch "decorator" [at_, branch "parenthesized_expression" [opening, value, closing]]
  let name ← expectLastVariable "identifier"
  let path ← decoratorPath (← get).bound name
  if ← atMark "(" then
    return branch "decorator" [at_, branch "call_expression" [path, ← arguments parts]]
  else return branch "decorator" [at_, path]

/-- Decorators, as many as there are. -/
def decorators (parts : Parts) : Reader (List Cst) :=
  collect do
    if ← atMark "@" then return some [(← decorator parts).withField "decorator"] else return none

/-- A member of a class, with the semicolon behind it. -/
def classMember (parts : Parts) : Reader (List Cst) := do
  if ← atMark ";" then return [← take]
  if (← atWord "static") && (← peek).isMark "\x7b" then
    let word ← take
    return [branch "class_static_block" [word, ← block parts]]
  let marks ← decorators parts
  let static ← modifier isStatic
  let words ← methodModifiers
  let key ← propertyName parts
  if ← atMark "(" then
    return [← methodFrom parts (marks ++ static ++ words ++ [key.withField "name"])]
  else if !words.isEmpty then giveUp
  else
    let front := marks ++ static ++ [key.withField "property"]
    let value ← do
      if ← atMark "=" then
        let mark ← take
        pure [mark, (← parts (.assignment true)).withField "value"]
      else pure []
    let ending ← statementEnd
    return branch "field_definition" (front ++ value) :: ending

/-- A class behind its decorators.  It is a declaration where one may stand and it
    has a name. -/
def classFrom (parts : Parts) (declared : Bool) (marks : List Cst) : Reader Cst := do
  let word ← expectWord "class"
  let name ← optionalName
  let heritage ← do
    if ← atWord "extends" then
      let extends_ ← take
      pure [branch "class_heritage" [extends_, ← parts (.assignment true)]]
    else pure []
  let opening ← expectMark "\x7b"
  let members ← collect do
    if ← atMark "\x7d" then return none
    return some (← classMember parts)
  let body := branch "class_body" (opening :: members ++ [← take])
  let kind := if declared && !name.isEmpty then "class_declaration" else "class"
  return branch kind (marks ++ [word] ++ name ++ heritage ++ [body])

/-- A class with a name behind its decorators, as a declaration. -/
def namedClassFrom (parts : Parts) (marks : List Cst) : Reader Cst := do
  if (← peek).isVariable then classFrom parts true marks else giveUp

end EsFeatures.Script
