/-
  EsFeatures.SyntaxError

  Why a source is no valid JavaScript, and where.
-/
import EsFeatures.Text.Position
import EsFeatures.Text.Quoted

namespace EsFeatures

open Text (Position quoted)

/-- What is wrong with a source. -/
inductive SyntaxCause where
  /-- A token of the given kind is missing. -/
  | missing (kind : String)
  /-- The given text fits nowhere. -/
  | unexpected (text : String)
  /-- The source stops too early. -/
  | unexpectedEnd
  /-- The tree is marked as faulty, and no faulty node lies within reach. -/
  | unlocated
  /-- A constant is declared without a value. -/
  | bareConst
  /-- A pattern is declared without a value to take apart. -/
  | barePattern
deriving Repr, DecidableEq

/-- The wording of a cause. -/
def SyntaxCause.message : SyntaxCause → String
  | .missing kind => "missing " ++ quoted kind
  | .unexpected text => "unexpected " ++ quoted text
  | .unexpectedEnd => "unexpected end of input"
  | .unlocated => "syntax error"
  | .bareConst => "missing initializer in const declaration"
  | .barePattern => "missing initializer in destructuring declaration"

/-- A cause with the character offset at which it was found and its place. -/
structure SyntaxError where
  cause : SyntaxCause
  offset : Int
  position : Position
deriving Repr, DecidableEq

/-- The error with the given cause at a character offset of a source. -/
def SyntaxError.locate (source : String) (offset : Int) (cause : SyntaxCause) : SyntaxError :=
  { cause, offset, position := Position.ofOffset source offset }

/-- The wording of an error: its place, then its cause. -/
def SyntaxError.message (e : SyntaxError) : String :=
  s!"Syntax error at {e.position.line}:{e.position.column}: " ++ e.cause.message

end EsFeatures
