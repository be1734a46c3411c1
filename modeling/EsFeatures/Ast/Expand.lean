/-
  EsFeatures.Ast.Expand

  One step of the conversion from concrete to abstract trees: the abstract node
  of a concrete one, with the list of what is still to be converted below it.

  Most constructs only change their name.  Three are given another shape:

  * declarations become one kind with the keyword as an attribute;
  * loops over `in` and `of` are told apart, and a keyword in a loop's head gives
    a declaration around the loop's variable;
  * templates become literals with an element for each piece of text.

  A declaration that the grammar accepts and JavaScript does not, a constant or a
  pattern without a value, is refused.
-/
import EsFeatures.Ast.Basic
import EsFeatures.Ast.KindName
import EsFeatures.Cst.Basic
import EsFeatures.SyntaxError
import EsFeatures.Text.ByteMap

namespace EsFeatures.Ast

open Text (ByteMap OffsetError)

/-- Why a concrete tree has no abstract one. -/
inductive Failure where
  /-- The source is no valid JavaScript. -/
  | invalid (error : SyntaxError)
  /-- A byte offset of the tree has no character offset. -/
  | offset (error : OffsetError)
deriving Repr, DecidableEq

/-- The wording of a failure. -/
def Failure.message : Failure → String
  | .invalid error => error.message
  | .offset error => error.message

/-- What is still to be done below a node. -/
inductive Pending where
  /-- A concrete tree to convert. -/
  | convert (tree : Cst)
  /-- A node already made, with nothing below it. -/
  | element (head : Head)
  /-- A declaration already made around one declarator, below which the given trees
      are still to be converted. -/
  | declaration (head declarator : Head) (inside : List Cst)

/-- The source of a conversion with its byte map. -/
structure Context where
  source : String
  map : ByteMap

/-- The context of a source. -/
def Context.ofSource (source : String) : Context :=
  ⟨source, ByteMap.ofSource source⟩

namespace Context

/-- The character offset of a byte offset. -/
def toChar (ctx : Context) (offset : Int) : Except Failure Int :=
  match ctx.map.toChar offset with
  | .ok place => .ok place
  | .error e => .error (.offset e)

/-- The head of a node that spans the given bytes. -/
def head (ctx : Context) (kind : String) (startByte endByte : Int)
    (attrs : List (String × Scalar)) : Except Failure Head := do
  let start ← ctx.toChar startByte
  let stop ← ctx.toChar endByte
  return { kind, start := some start, stop := some stop, attrs }

/-- The head of a node that spans a concrete tree. -/
def headOf (ctx : Context) (tree : Cst) (kind : String)
    (attrs : List (String × Scalar)) : Except Failure Head :=
  ctx.head kind tree.startByte tree.endByte attrs

end Context

/-- Kinds of concrete nodes that have no place in the abstract tree. -/
def isComment (kind : String) : Bool :=
  kind == "comment" || kind == "html_comment" || kind == "hash_bang_line"

/-- Whether a concrete node has an abstract one. -/
def isKept (tree : Cst) : Bool :=
  tree.label.named && !isComment tree.kind

/-- The constructs below a concrete node, to be converted in order. -/
def constructsOf (tree : Cst) : List Pending :=
  tree.namedChildren.map .convert

/-! ## Declarations -/

/-- Whether a concrete node is a pattern that takes a value apart. -/
def isPattern (tree : Cst) : Bool :=
  tree.kind == "object_pattern" || tree.kind == "array_pattern"

/-- What is wrong with a declarator in a declaration of the given keyword. -/
def bareCause? (keyword : String) (declarator : Cst) : Option SyntaxCause :=
  if declarator.label.named && declarator.kind == "variable_declarator"
      && (declarator.child? "value").isNone then
    if keyword == "const" then some .bareConst
    else if (declarator.child? "name").any isPattern then some .barePattern
    else none
  else none

/-- Refuses a declaration with a declarator that lacks a value it needs. -/
def checkValues (ctx : Context) (keyword : String) : List Cst → Except Failure Unit
  | [] => .ok ()
  | declarator :: rest =>
    match bareCause? keyword declarator with
    | none => checkValues ctx keyword rest
    | some cause =>
      match ctx.toChar declarator.startByte with
      | .ok offset => .error (.invalid (.locate ctx.source offset cause))
      | .error e => .error e

/-- The keyword of a declaration; without one it counts as `let`. -/
def keywordOf (tree : Cst) : String :=
  match tree.child? "kind" with
  | some keyword => keyword.kind
  | none => "let"

/-- A declaration with its keyword. -/
def expandDeclaration (ctx : Context) (tree : Cst) (keyword : String) :
    Except Failure (Head × List Pending) := do
  checkValues ctx keyword tree.children
  let head ← ctx.headOf tree "VariableDeclaration" [("kind", .text keyword)]
  return (head, constructsOf tree)

/-! ## Loops over `in` and `of` -/

/-- The declaration in a loop's head, around the loop's variable and what stands
    below its initial value. -/
def headDeclaration (ctx : Context) (keyword left : Cst) (value : Option Cst) :
    Except Failure Pending := do
  let last := value.getD left
  let declarator ← ctx.head "VariableDeclarator" left.startByte last.endByte []
  let declaration ← ctx.head "VariableDeclaration" keyword.startByte last.endByte
    [("kind", .text keyword.kind)]
  let inside := match value with
    | some value => value.namedChildren
    | none => []
  return .declaration declaration declarator (left :: inside)

/-- The work below a loop.  The first child under `left` gives way to the
    declaration, if there is one; the first child under `value` is left out. -/
def loopItems (declaration : Option Pending) (leftOpen valueOpen : Bool) :
    List Cst → List Pending
  | [] => []
  | child :: rest =>
    if leftOpen && child.hasField "left" then
      if child.label.named then
        declaration.getD (.convert child) :: loopItems declaration false valueOpen rest
      else loopItems declaration false valueOpen rest
    else if valueOpen && child.hasField "value" then
      loopItems declaration leftOpen false rest
    else if child.label.named then
      .convert child :: loopItems declaration leftOpen valueOpen rest
    else loopItems declaration leftOpen valueOpen rest

/-- Whether a loop goes over the items of a value, and not over its keys. -/
def isForOf (tree : Cst) : Bool :=
  (tree.child? "operator").any (·.kind == "of")

/-- The declaration in a loop's head, if it has a keyword and a variable. -/
def headDeclaration? (ctx : Context) (tree : Cst) : Except Failure (Option Pending) :=
  match tree.child? "kind", tree.child? "left" with
  | some keyword, some left => do
    let declaration ← headDeclaration ctx keyword left (tree.child? "value")
    return some declaration
  | _, _ => .ok none

/-- The head of a loop over `in` or `of`. -/
def loopHead (ctx : Context) (tree : Cst) : Except Failure Head :=
  if isForOf tree then
    ctx.headOf tree "ForOfStatement" [("await", .flag (tree.hasToken "await"))]
  else ctx.headOf tree "ForInStatement" []

/-- A loop over `in` or `of`. -/
def expandLoop (ctx : Context) (tree : Cst) : Except Failure (Head × List Pending) := do
  let head ← loopHead ctx tree
  let declaration ← headDeclaration? ctx tree
  return (head, loopItems declaration true true tree.children)

/-! ## Templates -/

/-- The piece of text of a template between two byte offsets. -/
def templateElement (ctx : Context) (start stop : Int) : Except Failure Pending := do
  let head ← ctx.head "TemplateElement" start stop [("raw", .text (ctx.map.text start stop))]
  return .element head

/-- Whether a concrete node is a substitution in a template. -/
def isSubstitution (tree : Cst) : Bool :=
  tree.label.named && tree.kind == "template_substitution"

/-- The work below a template whose next piece of text begins at byte `start`, and
    whose last one ends at byte `stop`: pieces of text alternate with the constructs
    of the substitutions. -/
def templateItems (ctx : Context) (stop : Int) (start : Int) :
    List Cst → Except Failure (List Pending)
  | [] => do
    let element ← templateElement ctx start stop
    return [element]
  | child :: rest =>
    if isSubstitution child then do
      let element ← templateElement ctx start child.startByte
      let items ← templateItems ctx stop child.endByte rest
      return element :: (constructsOf child ++ items)
    else templateItems ctx stop start rest

/-- A template: its quotes belong to no piece of text. -/
def expandTemplate (ctx : Context) (tree : Cst) : Except Failure (Head × List Pending) := do
  let head ← ctx.headOf tree "TemplateLiteral" []
  let items ← templateItems ctx ((tree.endByte : Int) - 1) ((tree.startByte : Int) + 1) tree.children
  return (head, items)

/-! ## One step -/

/-- A construct that keeps its shape. -/
def expandPlain (ctx : Context) (tree : Cst) (kind : String) (attrs : List (String × Scalar)) :
    Except Failure (Head × List Pending) := do
  let head ← ctx.headOf tree kind attrs
  return (head, constructsOf tree)

/-- The attribute that says whether a function is asynchronous. -/
def asyncAttr (tree : Cst) : String × Scalar :=
  ("async", .flag (tree.hasToken "async"))

/-- The abstract node of a construct and the work below it. -/
def expandKept (ctx : Context) (tree : Cst) : Except Failure (Head × List Pending) :=
  match tree.kind with
  | "lexical_declaration" => expandDeclaration ctx tree (keywordOf tree)
  | "variable_declaration" => expandDeclaration ctx tree "var"
  | "function_declaration" =>
    expandPlain ctx tree "FunctionDeclaration" [("generator", .flag false), asyncAttr tree]
  | "generator_function_declaration" =>
    expandPlain ctx tree "FunctionDeclaration" [("generator", .flag true), asyncAttr tree]
  | "arrow_function" =>
    expandPlain ctx tree "ArrowFunctionExpression" [asyncAttr tree, ("generator", .flag false)]
  | "function_expression" =>
    expandPlain ctx tree "FunctionExpression" [asyncAttr tree, ("generator", .flag false)]
  | "function" =>
    expandPlain ctx tree "FunctionExpression" [asyncAttr tree, ("generator", .flag false)]
  | "generator_function" =>
    expandPlain ctx tree "FunctionExpression" [asyncAttr tree, ("generator", .flag true)]
  | "method_definition" => expandPlain ctx tree "MethodDefinition" [asyncAttr tree]
  | "yield_expression" =>
    expandPlain ctx tree "YieldExpression" [("delegate", .flag (tree.hasToken "*"))]
  | "for_in_statement" => expandLoop ctx tree
  | "template_string" => expandTemplate ctx tree
  | kind => expandPlain ctx tree (kindName kind) []

/-- The abstract node of a concrete one and the work below it, or nothing for
    tokens and comments. -/
def expand (ctx : Context) (tree : Cst) : Except Failure (Option (Head × List Pending)) :=
  if isKept tree then
    match expandKept ctx tree with
    | .ok expanded => .ok (some expanded)
    | .error e => .error e
  else .ok none

end EsFeatures.Ast
