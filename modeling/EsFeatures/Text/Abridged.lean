/-
  EsFeatures.Text.Abridged

  Texts cut for display on one line: a line feed is shown as a backslash and an
  `n`, and three dots mark what was cut.
-/
import EsFeatures.Text.Slice

namespace EsFeatures.Text

/-- A text with every line feed shown as a backslash and an `n`. -/
def showLineFeeds (text : List Char) : List Char :=
  text.flatMap fun c => if c = '\n' then ['\\', 'n'] else [c]

/-- A text with every carriage return in front of a line feed removed. -/
def dropCarriageReturns : List Char → List Char
  | '\r' :: '\n' :: rest => '\n' :: dropCarriageReturns rest
  | c :: rest => c :: dropCarriageReturns rest
  | [] => []

/-- A text longer than `width` cut at bound `width` and marked with three dots. -/
def abridge (text : List Char) (width : Int) : List Char :=
  if width < text.length then slice text 0 width ++ ['.', '.', '.'] else text

/-- A snippet on one display line: line ends are shown, then the text is cut. -/
def oneLine (text : String) (width : Int) : String :=
  String.ofList (abridge (showLineFeeds (dropCarriageReturns text.toList)) width)

/-- The widest text in a dump. -/
def dumpWidth : Int := 60

/-- A text shortened for a dump: it is cut, then its line feeds are shown. -/
def truncateText (text : String) (width : Int) : String :=
  String.ofList (showLineFeeds (abridge text.toList width))

end EsFeatures.Text
