/-
  EsFeatures.Script.Reader

  Reading tokens one by one.  The state of a reader is the current token; each
  step takes it into the tree under construction or gives up at it.  Loops are
  bounded by the length of the script.
-/
import EsFeatures.Cst.Basic
import EsFeatures.Script.Token

namespace EsFeatures.Script

/-- The state of a reader. -/
structure State where
  token : Token
  /-- More than the number of tokens of the script. -/
  bound : Nat

/-- The place at which a reader gave up. -/
structure Mishap where
  start : Nat
  stop : Nat
deriving Repr, DecidableEq

/-- A step of reading. -/
abbrev Reader := StateT State (Except Mishap)

/-! ## Nodes -/

/-- The anonymous node of a token. -/
def tokenNode (t : Token) : Cst :=
  .node { kind := t.spelling, startByte := t.start, endByte := t.stop, named := false } []

/-- The named node of a token. -/
def leaf (kind : String) (t : Token) : Cst :=
  .node { kind, startByte := t.start, endByte := t.stop } []

/-- A construct around its parts: it begins with the first and ends with the
    last. -/
def branch (kind : String) (parts : List Cst) : Cst :=
  .node
    { kind
      startByte := (parts.head?.map Cst.startByte).getD 0
      endByte := (parts.getLast?.map Cst.endByte).getD 0 }
    parts

/-! ## Steps -/

/-- The current token. -/
def current : Reader Token := do
  return (← get).token

/-- The token behind the current one. -/
def peek : Reader Token := do
  return (← current).next

/-- Gives up at the current token. -/
def giveUp {α : Type} : Reader α := do
  let t ← current
  throw ⟨t.start, t.stop⟩

/-- Goes on with the token at or behind a place. -/
def goTo (afterOperand : Bool) (place : Cursor) : Reader Unit :=
  modify fun s => { s with token := read afterOperand .none place }

/-- Goes on with the given token. -/
def setToken (t : Token) : Reader Unit :=
  modify fun s => { s with token := t }

/-- Takes the current token as an anonymous node. -/
def take : Reader Cst := do
  let t ← current
  goTo t.endsOperand t.after
  return tokenNode t

/-- Takes the current token as a named node. -/
def takeAs (kind : String) : Reader Cst := do
  let t ← current
  goTo t.endsOperand t.after
  return leaf kind t

/-- Takes the current token as an anonymous node, behind which a statement may
    end. -/
def takeEnding : Reader Cst := do
  let t ← current
  goTo true t.after
  return tokenNode t

/-- Takes the current token as a named node that ends an operand. -/
def takeOperandAs (kind : String) : Reader Cst := do
  let t ← current
  goTo true t.after
  return leaf kind t

/-- Takes the current token as an anonymous node, where no operator can stand
    behind it. -/
def takeLast : Reader Cst := do
  let t ← current
  goTo false t.after
  return tokenNode t

/-- Takes the current token as a named node, where no operator can stand behind
    it. -/
def takeLastAs (kind : String) : Reader Cst := do
  let t ← current
  goTo false t.after
  return leaf kind t

/-- Whether the current token is the given mark. -/
def atMark (spelling : String) : Reader Bool := do
  return (← current).isMark spelling

/-- Whether the current token is the given word. -/
def atWord (spelling : String) : Reader Bool := do
  return (← current).isWord spelling

/-- Takes the given mark. -/
def expectMark (spelling : String) : Reader Cst := do
  if ← atMark spelling then take else giveUp

/-- Takes the given mark, where no operator can stand behind it. -/
def expectLastMark (spelling : String) : Reader Cst := do
  if ← atMark spelling then takeLast else giveUp

/-- Takes the given word, which is no operand there. -/
def expectWord (spelling : String) : Reader Cst := do
  if ← atWord spelling then takeLast else giveUp

/-- Takes the given mark if it is there. -/
def optionalMark (spelling : String) : Reader (List Cst) := do
  if ← atMark spelling then return [← take] else return []

/-- Takes the given word if it is there, where it is no operand. -/
def optionalWord (spelling : String) : Reader (List Cst) := do
  if ← atWord spelling then return [← takeLast] else return []

/-- Takes the name of a variable. -/
def expectVariable (kind : String) : Reader Cst := do
  if (← current).isVariable then takeAs kind else giveUp

/-- Takes the name of a variable, where no operator can stand behind it. -/
def expectLastVariable (kind : String) : Reader Cst := do
  if (← current).isVariable then takeLastAs kind else giveUp

/-- Repeats a step until it answers nothing, at most `rounds` times. -/
def collectFrom (step : Reader (Option (List Cst))) : Nat → Array Cst → Reader (List Cst)
  | 0, _ => giveUp
  | rounds + 1, done => do
    match ← step with
    | none => return done.toList
    | some more => collectFrom step rounds (done ++ more)

/-- Repeats a step until it answers nothing. -/
def collect (step : Reader (Option (List Cst))) : Reader (List Cst) := do
  collectFrom step (← get).bound #[]

/-- Items with commas between them, up to the mark `close`.  A comma may also stand
    behind the last item. -/
def commaList (close : String) (item : Reader Cst) : Reader (List Cst) :=
  collect do
    if ← atMark close then return none
    let part ← item
    if ← atMark close then return some [part]
    return some [part, ← expectMark ","]

/-- Whether a semicolon is understood in front of the current token: before a
    closing brace, at the end of the text and after the end of a line. -/
def atUnderstoodEnd : Reader Bool := do
  let t ← current
  return t.newline || (t.found != .barred && (t.isMark "\x7d" || t.sort = .endOfText))

/-- The end of a statement: a semicolon, or a place where one is understood. -/
def statementEnd : Reader (List Cst) := do
  if ← atMark ";" then return [← take]
  else if ← atUnderstoodEnd then return []
  else giveUp

/-! ## Goals -/

/-- What a reader may be asked to read.  `allowIn` tells whether the word `in` may
    stand as an operator. -/
inductive Goal where
  | statement
  | expression (allowIn : Bool)
  | assignment (allowIn : Bool)
  /-- Operands and operators that bind at least as tightly as `level`. -/
  | operation (level : Nat) (allowIn : Bool)
  /-- An operand with the operators that stand before it. -/
  | unary (allowIn : Bool)
  /-- What may stand behind `new`. -/
  | construction
  | binding
  | element
deriving Repr, DecidableEq

/-- How the parts of a construct are read. -/
abbrev Parts := Goal → Reader Cst

end EsFeatures.Script
