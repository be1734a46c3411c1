/-
  EsFeatures.Text.Integer

  Integers as people type them: blanks around, a sign, decimal digits of any
  script, single underscores between digits.
-/
import EsFeatures.Text.Digit

namespace EsFeatures.Text

/-- Blanks that may stand around an integer. -/
def isBlank (c : Char) : Bool :=
  c.toNat = 0x20 || (0x09 ≤ c.toNat && c.toNat ≤ 0x0d) || c.toNat = 0x85 || c.toNat = 0xa0 ||
  c.toNat = 0x1680 || (0x2000 ≤ c.toNat && c.toNat ≤ 0x200a) || c.toNat = 0x2028 ||
  c.toNat = 0x2029 || c.toNat = 0x202f || c.toNat = 0x205f || c.toNat = 0x3000

/-- A text without the blanks around it. -/
def trimBlanks (text : List Char) : List Char :=
  ((text.dropWhile isBlank).reverse.dropWhile isBlank).reverse

/-- The values of the digits of a number, first digit first; each underscore has
    to stand between two digits. -/
def digitValues? : List Char → Option (List Nat)
  | [] => none
  | [c] => (digitValue? c).map ([·])
  | c :: '_' :: rest => do
    let value ← digitValue? c
    let values ← digitValues? rest
    return value :: values
  | c :: rest => do
    let value ← digitValue? c
    let values ← digitValues? rest
    return value :: values

/-- The number with the given decimal digits. -/
def ofDigits (digits : List Nat) : Nat :=
  digits.foldl (fun value digit => value * 10 + digit) 0

/-- The most digits that an integer may have. -/
def maxDigits : Nat := 4300

/-- Reads an unsigned number. -/
def natural? (text : List Char) : Option Nat := do
  let digits ← digitValues? text
  if digits.length ≤ maxDigits then some (ofDigits digits) else none

/-- Reads an integer. -/
def integer? (text : String) : Option Int :=
  match trimBlanks text.toList with
  | '-' :: digits => (natural? digits).map fun n => -(n : Int)
  | '+' :: digits => (natural? digits).map fun n => (n : Int)
  | digits => (natural? digits).map fun n => (n : Int)

/-- A text without the line feed at its end, if it has one. -/
def dropLastLineFeed (text : List Char) : List Char :=
  if text.getLast? = some '\n' then text.dropLast else text

/-- Whether a word is a negative number: a minus sign and digits, or a minus sign
    and digits after a point.  A line feed may end it. -/
def isNegativeNumber (word : String) : Bool :=
  match dropLastLineFeed word.toList with
  | '-' :: rest =>
    match rest.dropWhile isDecimalDigit with
    | [] => !rest.isEmpty
    | '.' :: fraction => !fraction.isEmpty && fraction.all isDecimalDigit
    | _ => false
  | _ => false

end EsFeatures.Text
