/-
  EsFeatures.Report.Json

  JSON values and their text: members and items on lines of their own, two blanks
  for each level, an empty list as `[]`.  In texts only the quote, the backslash
  and control characters are escaped.
-/
import EsFeatures.Scalar
import EsFeatures.Text.Quoted

namespace EsFeatures

/-- A JSON value; the members of an object keep their order. -/
inductive Json where
  | scalar (value : Scalar)
  | list (items : List Json)
  | object (members : List (String × Json))
deriving Inhabited

namespace Json

/-- How a character stands in a text. -/
def escapedChar (c : Char) : List Char :=
  if c = '"' then ['\\', '"']
  else if c = '\\' then ['\\', '\\']
  else if c = '\n' then ['\\', 'n']
  else if c = '\r' then ['\\', 'r']
  else if c = '\t' then ['\\', 't']
  else if c.toNat = 0x08 then ['\\', 'b']
  else if c.toNat = 0x0c then ['\\', 'f']
  else if c.toNat < 0x20 then ['\\', 'u'] ++ Text.hexDigits 4 c.toNat
  else [c]

/-- A text between quotes. -/
def quotedText (text : String) : String :=
  String.ofList ('"' :: text.toList.flatMap escapedChar ++ ['"'])

/-- The text of a plain value. -/
def ofScalar : Scalar → String
  | .null => "null"
  | .flag true => "true"
  | .flag false => "false"
  | .integer value => toString value
  | .text value => quotedText value

/-- The start of a line at the given level. -/
def newLine (level : Nat) : String :=
  "\n" ++ String.ofList (List.replicate (2 * level) ' ')

mutual

/-- The text of a value whose first line is already begun at the given level. -/
def render (level : Nat) : Json → String
  | .scalar value => ofScalar value
  | .list [] => "[]"
  | .list (item :: items) =>
    "[" ++ newLine (level + 1) ++ render (level + 1) item ++ renderItems (level + 1) items ++
      newLine level ++ "]"
  | .object [] => "\x7b\x7d"
  | .object ((name, value) :: members) =>
    "\x7b" ++ newLine (level + 1) ++ quotedText name ++ ": " ++ render (level + 1) value ++
      renderMembers (level + 1) members ++ newLine level ++ "\x7d"

/-- The text of further items of a list. -/
def renderItems (level : Nat) : List Json → String
  | [] => ""
  | item :: items => "," ++ newLine level ++ render level item ++ renderItems level items

/-- The text of further members of an object. -/
def renderMembers (level : Nat) : List (String × Json) → String
  | [] => ""
  | (name, value) :: members =>
    "," ++ newLine level ++ quotedText name ++ ": " ++ render level value ++
      renderMembers level members

end

/-- The text of a value. -/
def pretty (value : Json) : String := render 0 value

end Json

end EsFeatures
