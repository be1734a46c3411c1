/-
  EsFeatures.Text.LineEnd

  Line ends of a text file.  A carriage return, alone or in front of a line
  feed, ends a line just as a line feed does.
-/

namespace EsFeatures.Text

/-- A text with a single line feed for each line end. -/
def unifyLineEnds : List Char → List Char
  | [] => []
  | '\r' :: '\n' :: rest => '\n' :: unifyLineEnds rest
  | '\r' :: rest => '\n' :: unifyLineEnds rest
  | c :: rest => c :: unifyLineEnds rest

end EsFeatures.Text
