/-
  EsFeatures.Script.Scan

  Scanning the characters of a script.  A cursor is what is left of the text
  with the byte offset at which it begins; every scanner walks the list of
  characters once and answers the cursor behind what it took.
-/

namespace EsFeatures.Script

/-- A place in a script: the text from there on and its byte offset. -/
structure Cursor where
  rest : List Char
  byte : Nat
deriving Repr, Inhabited

/-! ## Classes of characters -/

/-- Whether a character ends a line. -/
def isLineEnd (c : Char) : Bool :=
  c == '\n' || c == '\r' || c.toNat == 0x2028 || c.toNat == 0x2029

/-- Whether a character is white space within a line. -/
def isSpace (c : Char) : Bool :=
  c == ' ' || c == '\t' || c.toNat == 0x0b || c.toNat == 0x0c || c.toNat == 0xa0 ||
  c.toNat == 0x1680 || (0x2000 ≤ c.toNat && c.toNat ≤ 0x200a) || c.toNat == 0x202f ||
  c.toNat == 0x205f || c.toNat == 0x3000 || c.toNat == 0xfeff

/-- Whether a blank holds together what stands around it: no statement ends in front
    of it. -/
def isBinding (c : Char) : Bool :=
  c.toNat == 0xa0 || c.toNat == 0x2007 || c.toNat == 0x202f || c.toNat == 0xfeff

/-- Whether a character has no width and stands neither in a name nor between
    tokens. -/
def isWidthless (c : Char) : Bool :=
  c.toNat == 0x200b || c.toNat == 0x2060

/-- Characters that end a name, blanks apart. -/
def punctuation : List Char :=
  [':', ';', '`', '"', '\'', '@', '#', '.', ',', '|', '^', '&', '<', '=', '>', '+', '-', '*', '/',
   '\\', '%', '?', '!', '~', '(', ')', '[', ']', '\x7b', '\x7d']

/-- Whether a character may stand in a name. -/
def isNamePart (c : Char) : Bool :=
  0x20 ≤ c.toNat && !isSpace c && !isWidthless c && !isLineEnd c && !punctuation.contains c

/-- Whether a character may begin a name. -/
def isNameStart (c : Char) : Bool :=
  isNamePart c && !c.isDigit

/-! ## Runs of characters -/

/-- The place behind the longest run of characters of a class. -/
def skipWhile (p : Char → Bool) : List Char → Nat → Cursor
  | [], byte => ⟨[], byte⟩
  | c :: rest, byte => if p c then skipWhile p rest (byte + c.utf8Size) else ⟨c :: rest, byte⟩

/-- The place behind a run of characters of a class. -/
def Cursor.skipWhile (p : Char → Bool) (c : Cursor) : Cursor :=
  Script.skipWhile p c.rest c.byte

/-! ## Blanks and comments -/

/-- What a gap between two tokens says about the end of a statement in it. -/
inductive Break where
  /-- The gap lies within a line. -/
  | none
  /-- A line ends in the gap. -/
  | newline
  /-- A blank in the gap holds the tokens together. -/
  | barred
deriving Repr, DecidableEq, Inhabited

/-- The break behind the end of a line. -/
def Break.atLineEnd : Break → Break
  | .barred => .barred
  | _ => .newline

/-- The break behind a blank. -/
def Break.atBlank (c : Char) : Break → Break
  | .none => if isBinding c then .barred else .none
  | found => found

/-- What lies between two tokens: where the next token begins, and the break before
    it.  A comment without an end leaves no place. -/
structure Gap where
  place : Option Cursor
  found : Break

mutual

/-- Skips blanks and comments.  The marks of a page around the script count as
    comments too: both where no operand stands before them, the closing one also at
    the start of a line. -/
def skipGap (afterOperand : Bool) (found : Break) (text : List Char) (byte : Nat) : Gap :=
  match text with
  | '/' :: '/' :: rest => skipLineComment afterOperand found rest (byte + 2)
  | '/' :: '*' :: rest => skipBlockComment afterOperand found rest (byte + 2)
  | '<' :: '!' :: '-' :: '-' :: rest =>
    if afterOperand then ⟨some ⟨text, byte⟩, found⟩
    else skipLineComment afterOperand found rest (byte + 4)
  | '-' :: '-' :: '>' :: rest =>
    if afterOperand && found != .newline then ⟨some ⟨text, byte⟩, found⟩
    else skipLineComment afterOperand found rest (byte + 3)
  | c :: rest =>
    if isLineEnd c then skipGap afterOperand found.atLineEnd rest (byte + c.utf8Size)
    else if isSpace c then skipGap afterOperand (found.atBlank c) rest (byte + c.utf8Size)
    else ⟨some ⟨text, byte⟩, found⟩
  | [] => ⟨some ⟨[], byte⟩, found⟩

/-- Skips a comment up to the end of its line. -/
def skipLineComment (afterOperand : Bool) (found : Break) (text : List Char) (byte : Nat) :
    Gap :=
  match text with
  | c :: rest =>
    if isLineEnd c then skipGap afterOperand found.atLineEnd rest (byte + c.utf8Size)
    else skipLineComment afterOperand found rest (byte + c.utf8Size)
  | [] => ⟨some ⟨[], byte⟩, found⟩

/-- Skips a comment up to its closing mark. -/
def skipBlockComment (afterOperand : Bool) (found : Break) (text : List Char) (byte : Nat) :
    Gap :=
  match text with
  | '*' :: '/' :: rest => skipGap afterOperand found rest (byte + 2)
  | c :: rest =>
    skipBlockComment afterOperand (if isLineEnd c then found.atLineEnd else found) rest
      (byte + c.utf8Size)
  | [] => ⟨none, found⟩

end

/-- The place behind the line at the start of a script that names an interpreter, if
    there is one.  Blanks may stand before it. -/
def skipHashBang (text : List Char) : Cursor :=
  match (skipGap false .newline text 0).place with
  | some ⟨'#' :: '!' :: rest, byte⟩ => skipWhile (!isLineEnd ·) rest (byte + 2)
  | _ => ⟨text, 0⟩

/-! ## Escapes and references -/

/-- Whether a character is a hexadecimal digit. -/
def isHexDigit (c : Char) : Bool :=
  c.isDigit || ('a' ≤ c && c ≤ 'f') || ('A' ≤ c && c ≤ 'F')

/-- Whether a text begins with `count` hexadecimal digits. -/
def startsWithHex (count : Nat) (text : List Char) : Bool :=
  (text.take count).length == count && (text.take count).all isHexDigit

/-- Whether a run of at least one and at most `most` characters of a class stands
    at the start of a text, with `ending` right behind it. -/
def isRun (p : Char → Bool) (most : Nat) (ending : Char) (text : List Char) : Bool :=
  let run := text.takeWhile p
  !run.isEmpty && run.length ≤ most && (text.drop run.length).head? == some ending

/-- Whether what stands behind a backslash makes an escape: of the letters, `x`
    and `u` need their digits. -/
def isEscape : List Char → Bool
  | 'x' :: rest => startsWithHex 2 rest
  | 'u' :: '\x7b' :: rest => isRun isHexDigit rest.length '\x7d' rest
  | 'u' :: rest => startsWithHex 4 rest
  | _ => true

/-- Whether what stands behind an ampersand in an element makes a reference to a
    character, by its number or its name. -/
def isReference : List Char → Bool
  | '#' :: 'x' :: rest => isRun isHexDigit 6 ';' rest
  | '#' :: 'X' :: rest => isRun isHexDigit 6 ';' rest
  | '#' :: rest => isRun Char.isDigit 5 ';' rest
  | rest => isRun Char.isAlpha 30 ';' rest

/-! ## Names, numbers, texts -/

mutual

/-- Reads a name; `done` holds its characters so far, last first.  An escape
    belongs to the name. -/
def scanName (done : List Char) (text : List Char) (byte : Nat) : List Char × Cursor :=
  match text with
  | '\\' :: 'u' :: '\x7b' :: rest =>
    if isEscape ('u' :: '\x7b' :: rest) then
      scanNameEscape ('\x7b' :: 'u' :: '\\' :: done) rest (byte + 3)
    else (done.reverse, ⟨text, byte⟩)
  | '\\' :: 'u' :: rest =>
    if isEscape ('u' :: rest) then scanName ('u' :: '\\' :: done) rest (byte + 2)
    else (done.reverse, ⟨text, byte⟩)
  | c :: rest =>
    if isNamePart c then scanName (c :: done) rest (byte + c.utf8Size)
    else (done.reverse, ⟨text, byte⟩)
  | [] => (done.reverse, ⟨[], byte⟩)

/-- Reads the rest of an escape in braces. -/
def scanNameEscape (done : List Char) (text : List Char) (byte : Nat) : List Char × Cursor :=
  match text with
  | '\x7d' :: rest => scanName ('\x7d' :: done) rest (byte + 1)
  | c :: rest => scanNameEscape (c :: done) rest (byte + c.utf8Size)
  | [] => (done.reverse, ⟨[], byte⟩)

end

/-- The place behind the digits of a number; single underscores may stand between
    digits. -/
def skipDigits (p : Char → Bool) (text : List Char) (byte : Nat) : Cursor :=
  match text with
  | '_' :: c :: rest => if p c then skipDigits p rest (byte + 2) else ⟨text, byte⟩
  | c :: rest => if p c then skipDigits p rest (byte + 1) else ⟨text, byte⟩
  | [] => ⟨[], byte⟩

/-- The place behind an exponent, if one stands here. -/
def skipExponent (c : Cursor) : Cursor :=
  let digits := fun (rest : List Char) (byte : Nat) =>
    match rest with
    | d :: _ => if d.isDigit then skipDigits Char.isDigit rest byte else c
    | [] => c
  match c.rest with
  | e :: '+' :: rest => if e == 'e' || e == 'E' then digits rest (c.byte + 2) else c
  | e :: '-' :: rest => if e == 'e' || e == 'E' then digits rest (c.byte + 2) else c
  | e :: rest => if e == 'e' || e == 'E' then digits rest (c.byte + 1) else c
  | [] => c

/-- The place behind the mark of a big integer, if one stands here. -/
def skipBigMark (c : Cursor) : Cursor :=
  match c.rest with
  | 'n' :: rest => ⟨rest, c.byte + 1⟩
  | _ => c

/-- The place behind the fraction of a number, if one stands here. -/
def skipFraction (c : Cursor) : Cursor :=
  match c.rest with
  | '.' :: d :: rest =>
    if d.isDigit then skipDigits Char.isDigit (d :: rest) (c.byte + 1)
    else ⟨d :: rest, c.byte + 1⟩
  | '.' :: rest => ⟨rest, c.byte + 1⟩
  | _ => c

/-- The digits that a mark behind a leading zero announces. -/
def baseDigits? (mark : Char) : Option (Char → Bool) :=
  if mark == 'x' || mark == 'X' then some isHexDigit
  else if mark == 'o' || mark == 'O' then some fun c => '0' ≤ c && c ≤ '7'
  else if mark == 'b' || mark == 'B' then some fun c => c == '0' || c == '1'
  else none

/-- Whether the whole part of a number, which a text begins with, may have a
    fraction or an exponent behind it: of two leading zeros none may be. -/
def takesFraction : List Char → Bool
  | '0' :: c :: _ => c != '0' && c != '_'
  | _ => true

/-- The place behind a decimal number.  A big integer has neither a fraction nor an
    exponent. -/
def skipDecimal (c : Cursor) : Cursor :=
  let whole := skipDigits Char.isDigit c.rest c.byte
  match whole.rest with
  | 'n' :: rest => ⟨rest, whole.byte + 1⟩
  | _ => if takesFraction c.rest then skipExponent (skipFraction whole) else whole

/-- The place behind a number. -/
def skipNumber (c : Cursor) : Cursor :=
  match c.rest with
  | '0' :: mark :: first :: rest =>
    match baseDigits? mark with
    | some p =>
      if p first then skipBigMark (skipDigits p (first :: rest) (c.byte + 2))
      else skipDecimal c
    | none => skipDecimal c
  | _ => skipDecimal c

/-- The place behind the closing `quote` of a text; none when its line ends first
    or an escape in it is none. -/
def skipText (quote : Char) (text : List Char) (byte : Nat) : Option Cursor :=
  match text with
  | '\\' :: '\r' :: '\n' :: rest => skipText quote rest (byte + 3)
  | '\\' :: c :: rest =>
    if isEscape (c :: rest) then skipText quote rest (byte + 1 + c.utf8Size) else none
  | c :: rest =>
    if c == quote then some ⟨rest, byte + 1⟩
    else if c == '\n' || c == '\r' then none
    else skipText quote rest (byte + c.utf8Size)
  | [] => none

/-- The place behind the closing `quote` of a text in a tag, which may go over
    several lines and has references in place of escapes. -/
def skipTagText (quote : Char) (text : List Char) (byte : Nat) : Option Cursor :=
  match text with
  | '&' :: rest =>
    if rest.head?.any (fun c => c == '#' || c.isAlpha) && !isReference rest then none
    else skipTagText quote rest (byte + 1)
  | c :: rest =>
    if c == quote then some ⟨rest, byte + 1⟩ else skipTagText quote rest (byte + c.utf8Size)
  | [] => none

/-- The place behind the text between two tags: a bracket of any sort ends it, and
    an ampersand that begins no reference. -/
def skipElementText (text : List Char) (byte : Nat) : Cursor :=
  match text with
  | '&' :: rest =>
    if isReference rest then skipElementText rest (byte + 1) else ⟨text, byte⟩
  | c :: rest =>
    if c == '<' || c == '>' || c == '\x7b' || c == '\x7d' then ⟨text, byte⟩
    else skipElementText rest (byte + c.utf8Size)
  | [] => ⟨[], byte⟩

/-- The place behind a regular expression and its flags, which are small letters,
    given whether a class of characters is open; none when its line ends first. -/
def skipPattern (inClass : Bool) (text : List Char) (byte : Nat) : Option Cursor :=
  match text with
  | '\\' :: c :: rest =>
    if isLineEnd c then none else skipPattern inClass rest (byte + 1 + c.utf8Size)
  | c :: rest =>
    if isLineEnd c then none
    else if c == '/' && !inClass then some (skipWhile Char.isLower rest (byte + 1))
    else
      skipPattern (if c == '[' then true else if c == ']' then false else inClass) rest
        (byte + c.utf8Size)
  | [] => none

/-- How a piece of a template ends. -/
inductive TemplateEnd where
  /-- At the closing quote, with the place behind it. -/
  | closed (after : Cursor)
  /-- At a substitution, with the place behind its opening mark. -/
  | substitution (after : Cursor)
  /-- Nowhere: the text ends first, or an escape in it is none. -/
  | unclosed

/-- Finds the end of a piece of a template. -/
def scanTemplate (text : List Char) (byte : Nat) : TemplateEnd :=
  match text with
  | '\\' :: c :: rest =>
    if isEscape (c :: rest) then scanTemplate rest (byte + 1 + c.utf8Size) else .unclosed
  | '$' :: '\x7b' :: rest => .substitution ⟨rest, byte + 2⟩
  | '`' :: rest => .closed ⟨rest, byte + 1⟩
  | c :: rest => scanTemplate rest (byte + c.utf8Size)
  | [] => .unclosed

end EsFeatures.Script
