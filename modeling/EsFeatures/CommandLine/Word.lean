/-
  EsFeatures.CommandLine.Word

  What a single word of the command line is.  An option may be spelled in full,
  or be shortened as long as one spelling begins with it; its value may be
  attached to it.  A word that looks like no option is a value, and so is every
  word behind `--`.
-/
import EsFeatures.CommandLine.Option
import EsFeatures.Text.Integer

namespace EsFeatures.CommandLine

/-- A word of the command line. -/
inductive Word where
  | value (text : String)
  | separator
  /-- An option, with the value attached to it, if there is one. -/
  | option (option : Opt) (spelling : String) (attached : Option String)
  /-- A word that looks like an option and is none. -/
  | unknown (text : String)
deriving Repr, DecidableEq

/-- A word cut at its first equals sign. -/
def cutAtEquals (word : String) : String × Option String :=
  let chars := word.toList
  match chars.dropWhile (· != '=') with
  | [] => (word, none)
  | _ :: value => (String.ofList (chars.takeWhile (· != '=')), some (String.ofList value))

/-- The readings of a word as a shortened option, or as one of two characters with
    its value behind it. -/
def candidates (word : String) : List (Opt × String × Option String) :=
  let chars := word.toList
  if chars.take 2 = ['-', '-'] then
    let (start, value) := cutAtEquals word
    (Opt.table.filter fun (spelling, _) => start.toList.isPrefixOf spelling.toList).map
      fun (spelling, option) => (option, spelling, value)
  else
    Opt.table.filterMap fun (spelling, option) =>
      if spelling.toList = chars.take 2 then
        some (option, spelling, some (String.ofList (chars.drop 2)))
      else if chars.isPrefixOf spelling.toList then some (option, spelling, none)
      else none

/-- The reading of a word that spells an option in full, alone or with a value
    behind an equals sign. -/
def spelledOut? (word : String) : Option Word :=
  match Opt.ofSpelling? word with
  | some option => some (.option option word none)
  | none =>
    match cutAtEquals word with
    | (_, none) => none
    | (spelling, some value) =>
      (Opt.ofSpelling? spelling).map fun option => .option option spelling (some value)

/-- What a word is that no `--` stands in front of.  A negative number is a value,
    and so is a word with a blank in it that is no option. -/
def Word.ofText (word : String) : Except Misuse Word :=
  if word.toList.head? ≠ some '-' ∨ word = "-" then .ok (.value word)
  else
    match spelledOut? word with
    | some found => .ok found
    | none =>
      match candidates word with
      | [] =>
        if Text.isNegativeNumber word ∨ ' ' ∈ word.toList then .ok (.value word)
        else .ok (.unknown word)
      | [(opt, spelling, attached)] => .ok (.option opt spelling attached)
      | several => .error (.ambiguous word (several.map (·.2.1)))

/-- What the words of a command line are; behind `--` all are values. -/
def Word.ofTexts : List String → Except Misuse (List Word)
  | [] => .ok []
  | text :: rest =>
    if text = "--" then .ok (.separator :: rest.map .value)
    else do
      let word ← Word.ofText text
      let words ← Word.ofTexts rest
      return word :: words

end EsFeatures.CommandLine
