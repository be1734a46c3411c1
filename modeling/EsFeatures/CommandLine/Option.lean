/-
  EsFeatures.CommandLine.Option

  The options of the command line with their spellings, and what is said about
  how to use it.
-/
import EsFeatures.Report.Basic

namespace EsFeatures.CommandLine

/-- An option of the command line. -/
inductive Opt where
  | help | limit | snippetSize | output | outputDir | listFeatures | dumpAst | checkParser
deriving Repr, DecidableEq, Inhabited

namespace Opt

/-- All options, in the order in which they are listed. -/
def all : List Opt :=
  [.help, .limit, .snippetSize, .output, .outputDir, .listFeatures, .dumpAst, .checkParser]

/-- The spellings of an option. -/
def spellings : Opt → List String
  | .help => ["-h", "--help"]
  | .limit => ["-l", "--limit"]
  | .snippetSize => ["-s", "--snippet-size"]
  | .output => ["-o", "--output"]
  | .outputDir => ["-O", "--output-dir"]
  | .listFeatures => ["--list-features"]
  | .dumpAst => ["-da", "--dump-ast"]
  | .checkParser => ["-cp", "--check-parser"]

/-- Whether an option takes a value; one that takes none is a flag. -/
def takesValue : Opt → Bool
  | .limit | .snippetSize | .output | .outputDir => true
  | .help | .listFeatures | .dumpAst | .checkParser => false

/-- The name of an option in messages. -/
def title (option : Opt) : String :=
  "/".intercalate option.spellings

/-- Every spelling with its option. -/
def table : List (String × Opt) :=
  all.flatMap fun option => option.spellings.map (·, option)

/-- The option with exactly the given spelling. -/
def ofSpelling? (spelling : String) : Option Opt :=
  table.lookup spelling

end Opt

/-! ## Misuse -/

/-- Why a command line cannot be understood. -/
inductive Misuse where
  /-- A shortened option that several spellings begin with. -/
  | ambiguous (word : String) (candidates : List String)
  /-- An option that takes a value and has none. -/
  | noValue (option : Opt)
  /-- A flag with a value. -/
  | ignoredValue (option : Opt) (value : String)
  /-- A value that should be an integer and is none. -/
  | notInteger (option : Opt) (value : String)
  /-- A value that is no report mode. -/
  | noChoice (option : Opt) (value : String)
  /-- Words that mean nothing. -/
  | unrecognized (words : List String)
  /-- There is nothing to scan. -/
  | noInput
deriving Repr, DecidableEq

/-- The wording of a misuse. -/
def Misuse.message : Misuse → String
  | .ambiguous word candidates =>
    "ambiguous option: " ++ word ++ " could match " ++ ", ".intercalate candidates
  | .noValue option => "argument " ++ option.title ++ ": expected one argument"
  | .ignoredValue option value =>
    "argument " ++ option.title ++ ": ignored explicit argument " ++ Text.quoted value
  | .notInteger option value =>
    "argument " ++ option.title ++ ": invalid int value: " ++ Text.quoted value
  | .noChoice option value =>
    "argument " ++ option.title ++ ": invalid choice: " ++ Text.quoted value ++
      " (choose from " ++
      ", ".intercalate (ReportMode.all.map fun mode => Text.quoted mode.name) ++ ")"
  | .unrecognized words => "unrecognized arguments: " ++ " ".intercalate words
  | .noInput => "input_path is required (or use --list-features)"

/-! ## Help -/

/-- The short text on how to use the command line. -/
def usage : String :=
  "usage: escheck [-h] [-l LIMIT] [-s SNIPPET_SIZE] [-o \x7bshort,full,json\x7d]\n" ++
  "               [-O DIR] [--list-features] [-da] [-cp]\n" ++
  "               [input_path]\n"

/-- The whole text on how to use the command line. -/
def helpText : String :=
  usage ++
  "\n" ++
  "Detect ES6+ syntax in JavaScript source\n" ++
  "\n" ++
  "positional arguments:\n" ++
  "  input_path            Input JavaScript file or directory\n" ++
  "\n" ++
  "options:\n" ++
  "  -h, --help            show this help message and exit\n" ++
  "  -l LIMIT, --limit LIMIT\n" ++
  "                        Maximum findings reported per file (default: 2)\n" ++
  "  -s SNIPPET_SIZE, --snippet-size SNIPPET_SIZE\n" ++
  "                        Maximum snippet length in characters (default: 100)\n" ++
  "  -o \x7bshort,full,json\x7d, --output \x7bshort,full,json\x7d\n" ++
  "                        Output verbosity\n" ++
  "  -O DIR, --output-dir DIR\n" ++
  "                        Save results to a file in DIR\n" ++
  "  --list-features       List all detected features\n" ++
  "  -da, --dump-ast       Dump tree-sitter AST\n" ++
  "  -cp, --check-parser   Check parser: validate all files parse correctly\n"

end EsFeatures.CommandLine
