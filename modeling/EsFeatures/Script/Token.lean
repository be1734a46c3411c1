/-
  EsFeatures.Script.Token

  The tokens of a script.  A token remembers where it begins and where it ends,
  so that a reader that knows better can read the same place in another way: a
  slash as the start of a regular expression, a brace as the end of a template's
  substitution.
-/
import EsFeatures.Script.Scan

namespace EsFeatures.Script

/-- The sorts of tokens. -/
inductive TokenSort where
  | endOfText
  | name
  | privateName
  | number
  | text
  | mark
  | invalid
deriving Repr, DecidableEq, Inhabited

/-- A token; `spelling` is kept for names and marks. -/
structure Token where
  sort : TokenSort
  spelling : String := ""
  here : Cursor
  after : Cursor
  /-- The break in front of the token. -/
  found : Break := .none
deriving Repr, Inhabited

namespace Token

/-- The byte at which a token begins. -/
def start (t : Token) : Nat := t.here.byte

/-- The byte behind a token. -/
def stop (t : Token) : Nat := t.after.byte

/-- Whether a line ends in front of a token. -/
def newline (t : Token) : Bool := t.found == .newline

/-- Whether a token is the given mark. -/
def isMark (t : Token) (spelling : String) : Bool :=
  t.sort == .mark && t.spelling == spelling

/-- Whether a token is the given word. -/
def isWord (t : Token) (spelling : String) : Bool :=
  t.sort == .name && t.spelling == spelling

end Token

/-- Words that are no names of variables. -/
def reservedWords : List String :=
  ["break", "case", "catch", "class", "const", "continue", "debugger", "default", "delete", "do",
   "else", "export", "extends", "false", "finally", "for", "function", "if", "import", "in",
   "instanceof", "new", "null", "return", "super", "switch", "this", "throw", "true", "try",
   "typeof", "var", "void", "while", "with"]

/-- Reserved words that stand for a value. -/
def valueWords : List String :=
  ["false", "null", "super", "this", "true"]

/-- Whether a token can be the name of a variable. -/
def Token.isVariable (t : Token) : Bool :=
  t.sort == .name && !reservedWords.contains t.spelling

/-- Whether a token can be the name of a variable and means nothing else at the start
    of an expression. -/
def Token.isPlainVariable (t : Token) : Bool :=
  t.isVariable && t.spelling != "yield" && t.spelling != "undefined"

/-- Whether an operand may end with a token. -/
def Token.endsOperand (t : Token) : Bool :=
  match t.sort with
  | .name => !reservedWords.contains t.spelling || valueWords.contains t.spelling
  | .privateName => true
  | .number => true
  | .text => true
  | .mark => [")", "]", "\x7d", "`"].contains t.spelling
  | _ => false

/-- The marks of the language, longer ones first. -/
def marks : List String :=
  [">>>=",
   "...", "===", "!==", "**=", "<<=", ">>=", ">>>", "&&=", "||=", "??=",
   "=>", "==", "!=", "<=", ">=", "&&", "||", "??", "?.", "++", "--", "+=", "-=", "*=", "/=", "%=",
   "&=", "|=", "^=", "<<", ">>", "**",
   "\x7b", "\x7d", "(", ")", "[", "]", ";", ",", "<", ">", "+", "-", "*", "/", "%", "&", "|", "^",
   "!", "~", "?", ":", "=", ".", "@", "`"]

/-- Whether a mark stands at the start of a text.  A question mark in front of a
    fraction is a mark of its own. -/
def startsWithMark (text : List Char) (spelling : String) : Bool :=
  spelling.toList.isPrefixOf text &&
    !(spelling == "?." && ((text.drop 2).head?.any Char.isDigit))

/-- The mark at a place. -/
def readMark (c : Cursor) (found : Break) : Token :=
  match marks.find? (startsWithMark c.rest) with
  | some spelling =>
    { sort := .mark, spelling, here := c, found
      after := ⟨c.rest.drop spelling.length, c.byte + spelling.length⟩ }
  | none =>
    { sort := .invalid, here := c, found
      after := ⟨c.rest.drop 1, c.byte + (c.rest.head?.map Char.utf8Size).getD 0⟩ }

/-- The token at a place where no blank and no comment stands. -/
def readHere (c : Cursor) (found : Break) : Token :=
  match c.rest with
  | [] => { sort := .endOfText, here := c, after := c, found }
  | first :: rest =>
    if isNameStart first || first == '\\' then
      let (name, after) := scanName [] c.rest c.byte
      if name.isEmpty then readMark c found
      else { sort := .name, spelling := String.ofList name, here := c, after, found }
    else if first.isDigit then
      { sort := .number, here := c, after := skipNumber c, found }
    else if first == '"' || first == '\'' then
      match skipText first rest (c.byte + 1) with
      | some after => { sort := .text, here := c, after, found }
      | none =>
        { sort := .invalid, here := c, after := skipWhile (!isLineEnd ·) c.rest c.byte, found }
    else if first == '.' && rest.head?.any Char.isDigit then
      { sort := .number, here := c, after := skipNumber c, found }
    else if first == '#' && rest.head?.any (fun d => isNameStart d || d == '\\') then
      { sort := .privateName, here := c, after := (scanName [] rest (c.byte + 1)).2, found }
    else readMark c found

/-- The next token at or behind a place. -/
def read (afterOperand : Bool) (found : Break) (c : Cursor) : Token :=
  match skipGap afterOperand found c.rest c.byte with
  | ⟨some place, found⟩ => readHere place found
  | ⟨none, found⟩ =>
    { sort := .invalid, here := c, after := c.skipWhile fun _ => true, found }

/-- The token behind a token. -/
def Token.next (t : Token) : Token :=
  read t.endsOperand .none t.after

/-- The token behind a token behind which no operator can stand. -/
def Token.nextAfterLast (t : Token) : Token :=
  read false .none t.after

/-! ## Tokens within the tags of an element -/

/-- Whether a character may stand in the name of an element or attribute. -/
def isTagNamePart (c : Char) : Bool :=
  isNamePart c || c == '-'

/-- The token at a place within a tag, where no blank stands. -/
def readTagHere (c : Cursor) (found : Break) : Token :=
  match c.rest with
  | [] => { sort := .endOfText, here := c, after := c, found }
  | first :: rest =>
    if isNameStart first then
      { sort := .name, here := c, after := c.skipWhile isTagNamePart, found }
    else if first == '"' || first == '\'' then
      match skipTagText first rest (c.byte + 1) with
      | some after => { sort := .text, here := c, after, found }
      | none => { sort := .invalid, here := c, after := c.skipWhile fun _ => true, found }
    else
      { sort := .mark, spelling := String.singleton first, here := c, found
        after := ⟨rest, c.byte + first.utf8Size⟩ }

/-- The next token within a tag. -/
def readTag (c : Cursor) : Token :=
  match skipGap true .none c.rest c.byte with
  | ⟨some place, found⟩ => readTagHere place found
  | ⟨none, found⟩ =>
    { sort := .invalid, here := c, after := c.skipWhile fun _ => true, found }

end EsFeatures.Script
