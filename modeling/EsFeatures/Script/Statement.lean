/-
  EsFeatures.Script.Statement

  Statements and declarations.
-/
import EsFeatures.Script.Expression

namespace EsFeatures.Script

/-! ## Declarations -/

/-- The initial value of a variable, if one is there. -/
def initialValue (parts : Parts) (allowIn : Bool) : Reader (List Cst) := do
  if ← atMark "=" then
    let mark ← take
    return [mark, (← parts (.assignment allowIn)).withField "value"]
  else return []

/-- A variable with its initial value. -/
def declarator (parts : Parts) (allowIn : Bool) : Reader Cst := do
  let name ← parts .binding
  return branch "variable_declarator"
    (name.withField "name" :: (← initialValue parts allowIn))

/-- Further variables of a declaration, with the commas before them. -/
def moreDeclarators (parts : Parts) (allowIn : Bool) : Reader (List Cst) :=
  collect do
    if ← atMark "," then
      let comma ← take
      return some [comma, ← declarator parts allowIn]
    else return none

/-- The words that begin a declaration of variables; none when no such declaration
    begins at the current token. -/
def declarationWords : Reader (Option Nat) := do
  let t ← current
  if t.isWord "var" || t.isWord "const" then return some 1
  let next ← peek
  if t.isWord "let" && (next.isVariable || next.isMark "[" || next.isMark "\x7b") then
    return some 1
  if t.isWord "using" && next.isVariable && !next.newline && !next.isWord "of" then
    return some 1
  if t.isWord "await" && next.isWord "using" && !next.newline then return some 2
  return none

/-- Takes the words that begin a declaration; the last one is its keyword. -/
def takeKeyword : Nat → Reader (List Cst)
  | 0 => return []
  | 1 => return [(← take).withField "kind"]
  | words + 1 => do
    let word ← take
    return word :: (← takeKeyword words)

/-- The kind of a declaration with the given words before its variables. -/
def declarationKind (words : List Cst) : String :=
  match words.getLast?.map Cst.kind with
  | some "var" => "variable_declaration"
  | some "using" => "using_declaration"
  | _ => "lexical_declaration"

/-- A declaration of variables that begins with the given number of words. -/
def declaration (parts : Parts) (words : Nat) : Reader Cst := do
  let front ← takeKeyword words
  let first ← declarator parts true
  let more ← moreDeclarators parts true
  let ending ← statementEnd
  return branch (declarationKind front) (front ++ [first] ++ more ++ ending)

/-! ## Loops -/

/-- An expression in parentheses that belongs to a statement. -/
def condition (parts : Parts) : Reader Cst := do
  let opening ← expectMark "("
  let value ← parts (.expression true)
  let closing ← expectLastMark ")"
  return branch "parenthesized_expression" [opening, value, closing]

/-- Whether the current token is the word between a loop's variable and what it
    goes over. -/
def atLoopWord : Reader Bool := do
  return (← atWord "of") || (← atWord "in")

/-- A loop over `in` or `of` behind its variable. -/
def loopFrom (parts : Parts) (front : List Cst) : Reader Cst := do
  let operator ← takeLast
  let right ← parts (.expression true)
  let closing ← expectLastMark ")"
  let body ← parts .statement
  return branch "for_in_statement"
    (front ++ [operator.withField "operator", right.withField "right", closing,
      body.withField "body"])

/-- A counting loop behind its first clause.  It never waits. -/
def countingFrom (parts : Parts) (front : List Cst) : Reader Cst := do
  if front.any (·.kind == "await") then giveUp
  let test ← do
    if ← atMark ";" then pure [] else pure [← parts (.expression true)]
  let semicolon ← expectMark ";"
  let step ← do
    if ← atMark ")" then pure [] else pure [← parts (.expression true)]
  let closing ← expectLastMark ")"
  let body ← parts .statement
  return branch "for_statement" (front ++ test ++ [semicolon] ++ step ++ [closing, body])

/-- A loop whose head declares variables.  One that goes over names may give its
    variable an initial value first, if it declares it with `var`. -/
def declaringLoop (parts : Parts) (front : List Cst) (words : Nat) : Reader Cst := do
  let keyword ← takeKeyword words
  let name ← parts .binding
  if ← atLoopWord then
    loopFrom parts (front ++ keyword ++ [name.withField "left"])
  else
    let value ← initialValue parts false
    if (← atWord "in") && declarationKind keyword == "variable_declaration" then
      loopFrom parts (front ++ keyword ++ [name.withField "left"] ++ value)
    else
      let first := branch "variable_declarator" (name.withField "name" :: value)
      let more ← moreDeclarators parts false
      let semicolon ← expectMark ";"
      let head := branch (declarationKind keyword) (keyword ++ [first] ++ more ++ [semicolon])
      countingFrom parts (front ++ [head])

/-- A loop with `for`. -/
def forLoop (parts : Parts) : Reader Cst := do
  let word ← take
  let wait ← optionalWord "await"
  let opening ← expectMark "("
  let front := word :: wait ++ [opening]
  if ← atMark ";" then countingFrom parts (front ++ [← take])
  else
    match ← declarationWords with
    | some words => declaringLoop parts front words
    | none =>
      let first ← parts (.expression false)
      if ← atLoopWord then
        let target ← expectTarget first
        loopFrom parts (front ++ [target.withField "left"])
      else countingFrom parts (front ++ [first, ← expectMark ";"])

/-- A loop that tests its condition first. -/
def whileLoop (parts : Parts) : Reader Cst := do
  let word ← take
  let test ← condition parts
  return branch "while_statement" [word, test, ← parts .statement]

/-- A loop that tests its condition last; its semicolon may always be left out. -/
def doLoop (parts : Parts) : Reader Cst := do
  let word ← take
  let body ← parts .statement
  let while_ ← expectWord "while"
  let test ← condition parts
  let ending ← optionalMark ";"
  return branch "do_statement" ([word, body, while_, test] ++ ending)

/-! ## Choices -/

/-- A statement under a condition. -/
def ifStatement (parts : Parts) : Reader Cst := do
  let word ← take
  let test ← condition parts
  let yes ← parts .statement
  if ← atWord "else" then
    let else_ ← take
    let no ← parts .statement
    return branch "if_statement" [word, test, yes, branch "else_clause" [else_, no]]
  else return branch "if_statement" [word, test, yes]

/-- Statements up to the next case or the end of the cases. -/
def caseBody (parts : Parts) : Reader (List Cst) :=
  collect do
    if (← atWord "case") || (← atWord "default") || (← atMark "\x7d") then return none
    return some [← parts .statement]

/-- One case. -/
def switchCase (parts : Parts) : Reader Cst := do
  if ← atWord "default" then
    let word ← take
    let colon ← expectMark ":"
    return branch "switch_default" ([word, colon] ++ (← caseBody parts))
  else
    let word ← expectWord "case"
    let value ← parts (.expression true)
    let colon ← expectMark ":"
    return branch "switch_case" ([word, value, colon] ++ (← caseBody parts))

/-- A choice among cases. -/
def switchStatement (parts : Parts) : Reader Cst := do
  let word ← take
  let value ← condition parts
  let opening ← expectMark "\x7b"
  let cases ← collect do
    if ← atMark "\x7d" then return none
    return some [← switchCase parts]
  let body := branch "switch_body" (opening :: cases ++ [← takeLast])
  return branch "switch_statement" [word, value, body]

/-- A block with what is done when it fails and when it is left. -/
def tryStatement (parts : Parts) : Reader Cst := do
  let word ← take
  let body ← block parts
  let handler ← do
    if ← atWord "catch" then
      let catch_ ← take
      let parameter ← do
        if ← atMark "(" then
          let opening ← take
          let target ← parts .binding
          pure [opening, target.withField "parameter", ← expectLastMark ")"]
        else pure []
      pure [branch "catch_clause" (catch_ :: parameter ++ [← block parts])]
    else pure []
  let finalizer ← do
    if ← atWord "finally" then
      let finally_ ← take
      pure [branch "finally_clause" [finally_, ← block parts]]
    else pure []
  return branch "try_statement" (word :: body :: handler ++ finalizer)

/-! ## Other statements -/

/-- Whether a statement may end before the current token. -/
def atStatementEnd : Reader Bool := do
  return (← atMark ";") || (← atUnderstoodEnd)

/-- A function's end, with the value that it gives, if there is one. -/
def returnStatement (parts : Parts) : Reader Cst := do
  let word ← takeEnding
  let value ← do
    if ← atStatementEnd then pure [] else pure [← parts (.expression true)]
  return branch "return_statement" (word :: value ++ (← statementEnd))

/-- The throw of a value. -/
def throwStatement (parts : Parts) : Reader Cst := do
  let word ← take
  let value ← parts (.expression true)
  return branch "throw_statement" (word :: value :: (← statementEnd))

/-- A word with a label behind it, which may be left out. -/
def jumpStatement (kind : String) : Reader Cst := do
  let word ← takeEnding
  let label ← do
    if ← atStatementEnd then pure [] else pure [← expectVariable "statement_identifier"]
  return branch kind (word :: label ++ (← statementEnd))

/-- An expression as a statement. -/
def expressionStatement (parts : Parts) : Reader Cst := do
  let value ← expression parts true
  return branch "expression_statement" (value :: (← statementEnd))

/-- A statement under a label. -/
def labeledStatement (parts : Parts) : Reader Cst := do
  let label ← takeAs "statement_identifier"
  let colon ← take
  return branch "labeled_statement" [label, colon, ← parts .statement]

end EsFeatures.Script
