/-
  EsFeatures.Script.Grammar

  The grammar tied together, and the concrete tree of a script.
-/
import EsFeatures.Script.Module

namespace EsFeatures.Script

/-- A class or an exported construct behind decorators. -/
def decoratedStatement (parts : Parts) : Reader Cst := do
  let marks ← decorators parts
  if ← atWord "export" then exportFrom parts marks
  else if (← peek).isVariable then classFrom parts true marks
  else
    let value ← classFrom parts false marks
    return branch "expression_statement" (value :: (← statementEnd))

/-- Whether what stands behind `import` makes it part of an expression. -/
def importsInPlace (next : Token) : Bool :=
  next.isMark "(" || next.isMark "."

/-- A statement. -/
def statement (parts : Parts) : Reader Cst := do
  let t ← current
  let next ← peek
  if t.sort = .mark then
    match t.spelling with
    | "\x7b" => block parts
    | ";" => return branch "empty_statement" [← take]
    | "@" => decoratedStatement parts
    | _ => expressionStatement parts
  else if t.sort = .name then
    if t.isPlainVariable && next.isMark ":" then labeledStatement parts
    else
      match ← declarationWords with
      | some words => declaration parts words
      | none =>
        if ← atNamedFunction then function parts true
        else
          match t.spelling with
          | "class" =>
            if next.isVariable then classFrom parts true [] else expressionStatement parts
          | "if" => ifStatement parts
          | "for" => forLoop parts
          | "while" => whileLoop parts
          | "do" => doLoop parts
          | "switch" => switchStatement parts
          | "try" => tryStatement parts
          | "return" => returnStatement parts
          | "throw" => throwStatement parts
          | "break" => jumpStatement "break_statement"
          | "continue" => jumpStatement "continue_statement"
          | "debugger" =>
            let word ← takeEnding
            return branch "debugger_statement" (word :: (← statementEnd))
          | "with" =>
            let word ← take
            let value ← condition parts
            return branch "with_statement" [word, value, ← parts .statement]
          | "export" => exportFrom parts []
          | "import" =>
            if importsInPlace next then expressionStatement parts else importStatement parts
          | _ => expressionStatement parts
  else expressionStatement parts

/-- Reads what a goal asks for, given how the parts are read. -/
def rule (parts : Parts) : Goal → Reader Cst
  | .statement => statement parts
  | .expression allowIn => expression parts allowIn
  | .assignment allowIn => assignment parts allowIn
  | .operation level allowIn => operation parts level allowIn
  | .unary allowIn => unary parts allowIn
  | .construction => construction parts
  | .binding => binding parts
  | .element => element parts

/-- The grammar, for constructs nested at most `depth` deep. -/
def grammar : Nat → Parts
  | 0 => fun _ => giveUp
  | depth + 1 => rule (grammar depth)

/-- The statements of a script. -/
def statements (depth : Nat) : Reader (List Cst) :=
  collect do
    if (← current).sort = .endOfText then return none
    return some [← grammar depth .statement]

/-- The tree of a script that breaks the grammar between two bytes. -/
def faultyTree (start stop : Nat) (size : Nat) : Cst :=
  .node { kind := "program", startByte := 0, endByte := size, hasError := true }
    [.node { kind := "ERROR", startByte := start, endByte := stop, hasError := true } []]

/-- The concrete tree of a script.  A script that breaks the grammar gives a tree
    with an error node in place of the token at which the reader gave up.  Every
    construct takes a token, so the script is longer than its constructs are
    deep. -/
def parse (source : String) : Cst :=
  let text := source.toList
  let start := skipHashBang text
  let bound := text.length + 2
  let state : State := { token := read false .newline start, bound }
  match (statements bound).run state with
  | .ok (trees, _) =>
    if anyStrayDefault trees then faultyTree 0 source.utf8ByteSize source.utf8ByteSize
    else
      .node
        { kind := "program"
          startByte := (trees.head?.map Cst.startByte).getD 0
          endByte := source.utf8ByteSize }
        trees
  | .error mishap => faultyTree mishap.start mishap.stop source.utf8ByteSize

end EsFeatures.Script
