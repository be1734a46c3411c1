/-
  EsFeatures.Script.Expression

  Expressions: literals, calls, operators, arrow functions and assignments.
-/
import EsFeatures.Script.Element
import EsFeatures.Script.Function
import EsFeatures.Script.Target

namespace EsFeatures.Script

/-! ## Literals -/

/-- The pieces of a template from a place on. -/
def templateFrom (parts : Parts) : Nat → Array Cst → Cursor → Reader (Array Cst)
  | 0, _, _ => giveUp
  | rounds + 1, done, place => do
    match scanTemplate place.rest place.byte with
    | .unclosed => giveUp
    | .closed after =>
      let quote : Token :=
        { sort := .mark, spelling := "`", here := ⟨[], after.byte - 1⟩, after }
      goTo true after
      return done.push (tokenNode quote)
    | .substitution after =>
      let opening : Token :=
        { sort := .mark, spelling := "$\x7b", here := ⟨[], after.byte - 2⟩, after }
      goTo false after
      let value ← parts (.expression true)
      let closing ← current
      if closing.isMark "\x7d" then
        let piece := branch "template_substitution" [tokenNode opening, value, tokenNode closing]
        templateFrom parts rounds (done.push piece) closing.after
      else giveUp

/-- A template. -/
def template (parts : Parts) : Reader Cst := do
  let t ← current
  let pieces ← templateFrom parts (← get).bound #[tokenNode t] t.after
  return branch "template_string" pieces.toList

/-- A regular expression, which begins with the slash of the current token. -/
def regularExpression : Reader Cst := do
  let t ← current
  match skipPattern false (t.here.rest.drop 1) (t.start + 1) with
  | some after =>
    goTo true after
    return leaf "regex" { t with after }
  | none => giveUp

/-- An array literal, in which places may be left empty. -/
def array (parts : Parts) : Reader Cst := do
  let opening ← take
  let items ← collect do
    if ← atMark "]" then return none
    if ← atMark "," then return some [← take]
    let item ← do
      if ← atMark "..." then
        let dots ← take
        let value ← parts (.assignment true)
        pure (branch "spread_element" [dots, value])
      else parts (.assignment true)
    if ← atMark "]" then return some [item]
    return some [item, ← expectMark ","]
  return branch "array" (opening :: items ++ [← take])

/-! ## Arrow functions and parentheses -/

/-- An arrow function behind its parameters, on the line on which they end. -/
def arrowFrom (parts : Parts) (allowIn : Bool) (front : List Cst) : Reader Cst := do
  if (← current).newline then giveUp
  let arrow ← expectMark "=>"
  let body ← do
    if ← atMark "\x7b" then block parts else parts (.assignment allowIn)
  return branch "arrow_function" (front ++ [arrow, body])

/-- Whether parts between parentheses are expressions with commas between them,
    and not only parameters. -/
def isSequence : List Cst → Bool
  | [] => false
  | [item] => item.label.named && item.kind != "spread_element"
  | item :: _ :: rest => item.label.named && item.kind != "spread_element" && isSequence rest

/-- Several expressions as one. -/
def sequence : List Cst → Cst
  | [item] => item
  | items => branch "sequence_expression" items

/-- Parentheses around expressions, or an arrow function with its parameters in
    parentheses. -/
def parenthesized (parts : Parts) (allowIn : Bool) : Reader Cst := do
  let list ← arguments parts
  if ← atMark "=>" then
    arrowFrom parts allowIn [← expectParameters list.children]
  else
    match list.children with
    | opening :: rest =>
      let inside := rest.dropLast
      if isSequence inside then
        return branch "parenthesized_expression"
          ([opening, sequence inside] ++ rest.drop inside.length)
      else giveUp
    | [] => giveUp

/-- A call of `async`, or an asynchronous arrow function with its parameters in
    parentheses. -/
def asyncCall (parts : Parts) (allowIn : Bool) : Reader Cst := do
  let t ← current
  let word ← take
  let list ← arguments parts
  if ← atMark "=>" then
    arrowFrom parts allowIn [word, ← expectParameters list.children]
  else return branch "call_expression" [leaf "identifier" t, list]

/-- Whether an asynchronous arrow function with one parameter begins with `word`,
    given the token behind it. -/
def startsAsyncArrow (word next : Token) : Bool :=
  word.isWord "async" && next.isVariable && !next.newline &&
    (read true .none next.after).isMark "=>"

/-! ## Operands -/

/-- The marks and words that an expression may begin with. -/
def startsExpression (t : Token) : Bool :=
  match t.sort with
  | .name =>
    !reservedWords.contains t.spelling || valueWords.contains t.spelling ||
    ["class", "delete", "function", "import", "new", "typeof", "void"].contains t.spelling
  | .privateName => true
  | .number => true
  | .text => true
  | .mark =>
    ["(", "[", "\x7b", "`", "+", "-", "!", "~", "++", "--", "/", "/=", "<", "@"].contains t.spelling
  | _ => false

/-- Takes the given word behind a point. -/
def expectProperty (spelling : String) : Reader Cst := do
  if ← atWord spelling then takeAs "property_identifier" else giveUp

/-- An expression that begins with a word. -/
def wordOperand (parts : Parts) (allowIn : Bool) (t : Token) : Reader Cst := do
  let next ← peek
  if t.isPlainVariable && next.isMark "=>" then
    let name ← takeAs "identifier"
    arrowFrom parts allowIn [name.withField "parameter"]
  else if startsAsyncArrow t next then
    let word ← take
    let name ← takeAs "identifier"
    arrowFrom parts allowIn [word, name.withField "parameter"]
  else if ← atFunction then function parts false
  else if t.isWord "async" && next.isMark "(" && !next.newline then asyncCall parts allowIn
  else if t.isWord "class" then classFrom parts false []
  else if t.isWord "new" then parts .construction
  else if t.isWord "import" then
    let word ← takeAs "import"
    if ← atMark "." then
      let dot ← take
      return branch "meta_property" [word, dot, ← expectProperty "meta"]
    else if ← atMark "(" then return word
    else giveUp
  else if valueWords.contains t.spelling || t.isWord "undefined" then takeAs t.spelling
  else if t.isWord "yield" then giveUp
  else expectVariable "identifier"

/-- The first part of an operand. -/
def operandStart (parts : Parts) (allowIn : Bool) : Reader Cst := do
  let t ← current
  match t.sort with
  | .name => wordOperand parts allowIn t
  | .number => takeAs "number"
  | .text => takeAs "string"
  | .privateName =>
    if t.nextAfterLast.isWord "in" then takeLastAs "private_property_identifier" else giveUp
  | .mark =>
    match t.spelling with
    | "(" => parenthesized parts allowIn
    | "[" => array parts
    | "\x7b" => object parts
    | "`" => template parts
    | "/" => regularExpression
    | "/=" => regularExpression
    | "@" => classFrom parts false (← decorators parts)
    | "<" =>
      let tree ← element parts
      goTo true (← current).after
      return tree
    | _ => giveUp
  | _ => giveUp

/-- The name of a member behind a point. -/
def memberName : Reader Cst := do
  let t ← current
  if t.sort = .privateName then takeOperandAs "private_property_identifier"
  else if t.sort = .name then takeOperandAs "property_identifier"
  else giveUp

/-- An index in brackets. -/
def indexParts (parts : Parts) : Reader (List Cst) := do
  let opening ← take
  let index ← parts (.expression true)
  let closing ← expectMark "]"
  return [opening, index, closing]

/-- One more part of an operand: a member, an index, a call or a template behind
    it; `calls` tells whether calls belong to it. -/
def operandStep (parts : Parts) (calls : Bool) (tree : Cst) : Reader (Option Cst) := do
  let t ← current
  if t.isMark "." then
    let dot ← take
    return some (branch "member_expression" [tree, dot, ← memberName])
  else if t.isMark "[" then
    return some (branch "subscript_expression" (tree :: (← indexParts parts)))
  else if t.isMark "`" then
    return some (branch "call_expression" [tree, ← template parts])
  else if !calls then return none
  else if t.isMark "(" then
    return some (branch "call_expression" [tree, ← arguments parts])
  else if t.isMark "?." then
    let chain ← takeAs "optional_chain"
    if ← atMark "[" then
      return some (branch "subscript_expression" (tree :: chain :: (← indexParts parts)))
    else if ← atMark "(" then
      return some (branch "call_expression" [tree, chain, ← arguments parts])
    else return some (branch "member_expression" [tree, chain, ← memberName])
  else return none

/-- Adds parts to a tree as long as there are some, at most `rounds` times. -/
def growFrom (step : Cst → Reader (Option Cst)) : Nat → Cst → Reader Cst
  | 0, _ => giveUp
  | rounds + 1, tree => do
    match ← step tree with
    | some grown => growFrom step rounds grown
    | none => return tree

/-- Adds parts to a tree as long as there are some. -/
def grow (step : Cst → Reader (Option Cst)) (tree : Cst) : Reader Cst := do
  growFrom step (← get).bound tree

/-- Whether no operator may follow a tree within the same expression, because the
    tree ends with an expression that would have taken it. -/
def isClosed (tree : Cst) : Bool :=
  (tree.kind == "arrow_function" && tree.children.getLast?.any (·.kind != "statement_block")) ||
  tree.kind == "assignment_expression" || tree.kind == "augmented_assignment_expression" ||
  tree.kind == "yield_expression"

/-- An operand with its members and calls. -/
def operand (parts : Parts) (allowIn : Bool) : Reader Cst := do
  let first ← operandStart parts allowIn
  if isClosed first then return first else grow (operandStep parts true) first

/-- What stands behind `new`, with its arguments. -/
def construction (parts : Parts) : Reader Cst := do
  let word ← take
  if ← atMark "." then
    let dot ← take
    return branch "meta_property" [word, dot, ← expectProperty "target"]
  let first ← do
    if ← atWord "new" then parts .construction else operandStart parts true
  let callee ← grow (operandStep parts false) first
  if ← atMark "(" then return branch "new_expression" [word, callee, ← arguments parts]
  else return branch "new_expression" [word, callee]

/-! ## Assignments -/

/-- The operators that assign to a variable or member what they compute. -/
def assignmentMarks : List String :=
  ["+=", "-=", "*=", "/=", "%=", "**=", "<<=", ">>=", ">>>=", "&=", "|=", "^=", "&&=", "||=", "??="]

/-- An assignment behind its left side, if one is there.  What is assigned goes as
    far as it can, so an assignment may also stand behind an operator. -/
def assignmentFrom (parts : Parts) (allowIn : Bool) (tree : Cst) : Reader Cst := do
  let t ← current
  if t.isMark "=" then
    let target ← expectTarget tree
    let mark ← take
    let value ← parts (.assignment allowIn)
    return branch "assignment_expression" [target, mark, value]
  else if t.sort = .mark && assignmentMarks.contains t.spelling &&
      (isPlainTarget tree || tree.kind == "parenthesized_expression") then
    let operator ← take
    let value ← parts (.assignment allowIn)
    return branch "augmented_assignment_expression" [tree, operator, value]
  else return tree

/-- A yield, with the value that it gives, if there is one. -/
def yieldExpression (parts : Parts) (allowIn : Bool) : Reader Cst := do
  let word ← take
  let t ← current
  if t.newline then return branch "yield_expression" [word]
  else if t.isMark "*" then
    let star ← take
    return branch "yield_expression" [word, star, ← parts (.assignment allowIn)]
  else if startsExpression t then
    return branch "yield_expression" [word, ← parts (.assignment allowIn)]
  else return branch "yield_expression" [word]

/-! ## Operators -/

/-- The marks that stand before an operand. -/
def unaryMarks : List String := ["+", "-", "~", "!"]

/-- The words that stand before an operand. -/
def unaryWords : List String := ["delete", "void", "typeof"]

/-- An operand with a mark that counts it up or down behind it. -/
def updateFrom (tree : Cst) : Reader Cst := do
  let t ← current
  if (t.isMark "++" || t.isMark "--") && !t.newline then
    return branch "update_expression" [tree, ← take]
  else return tree

/-- An operand with the operators that stand before it. -/
def unary (parts : Parts) (allowIn : Bool) : Reader Cst := do
  let t ← current
  if (t.sort = .mark && unaryMarks.contains t.spelling) ||
      (t.sort = .name && unaryWords.contains t.spelling) then
    let operator ← take
    return branch "unary_expression" [operator, ← parts (.unary allowIn)]
  else if t.isMark "++" || t.isMark "--" then
    let operator ← take
    return branch "update_expression" [operator, ← parts (.unary allowIn)]
  else if t.isWord "await" && startsExpression (← peek) then
    let word ← take
    return branch "await_expression" [word, ← parts (.unary allowIn)]
  else if t.isWord "yield" then yieldExpression parts allowIn
  else
    let tree ← operand parts allowIn
    if isClosed tree then return tree
    else assignmentFrom parts allowIn (← updateFrom tree)

/-- How tightly each operator between operands binds. -/
def operatorLevels : List (String × Nat) :=
  [("??", 1), ("||", 2), ("&&", 3), ("|", 4), ("^", 5), ("&", 6),
   ("==", 7), ("!=", 7), ("===", 7), ("!==", 7),
   ("<", 8), (">", 8), ("<=", 8), (">=", 8),
   ("<<", 9), (">>", 9), (">>>", 9), ("+", 10), ("-", 10),
   ("*", 11), ("/", 11), ("%", 11), ("**", 12)]

/-- How tightly an operator binds; none for a token that is no operator. -/
def operatorLevel? (allowIn : Bool) (t : Token) : Option Nat :=
  match t.sort with
  | .mark => operatorLevels.lookup t.spelling
  | .name =>
    if t.spelling == "instanceof" || (allowIn && t.spelling == "in") then some 8 else none
  | _ => none

/-- One more operator of at least the given level and its right operand. -/
def operationStep (parts : Parts) (level : Nat) (allowIn : Bool) (tree : Cst) :
    Reader (Option Cst) := do
  match operatorLevel? allowIn (← current) with
  | some found =>
    if found < level || isClosed tree then return none
    let operator ← take
    let right ← parts (.operation (if found = 12 then found else found + 1) allowIn)
    return some (branch "binary_expression" [tree, operator, right])
  | none => return none

/-- Operators of at least the given level behind an operand. -/
def operationFrom (parts : Parts) (level : Nat) (allowIn : Bool) (tree : Cst) : Reader Cst :=
  grow (operationStep parts level allowIn) tree

/-- Operands with operators of at least the given level between them. -/
def operation (parts : Parts) (level : Nat) (allowIn : Bool) : Reader Cst := do
  operationFrom parts level allowIn (← unary parts allowIn)

/-- A choice behind its condition, if one is there. -/
def conditionalFrom (parts : Parts) (allowIn : Bool) (tree : Cst) : Reader Cst := do
  if (← atMark "?") && !isClosed tree then
    let question ← take
    let yes ← parts (.assignment true)
    let colon ← expectMark ":"
    let no ← parts (.assignment allowIn)
    return branch "ternary_expression" [tree, question, yes, colon, no]
  else return tree

/-! ## Whole expressions -/

/-- An expression without commas. -/
def assignment (parts : Parts) (allowIn : Bool) : Reader Cst := do
  conditionalFrom parts allowIn (← operation parts 0 allowIn)

/-- One or more expressions with commas between them. -/
def expression (parts : Parts) (allowIn : Bool) : Reader Cst := do
  let first ← assignment parts allowIn
  let more ← collect do
    if ← atMark "," then
      let comma ← take
      return some [comma, ← parts (.assignment allowIn)]
    else return none
  return sequence (first :: more)

end EsFeatures.Script
