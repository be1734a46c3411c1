/-
  EsFeatures.CommandLine.Run

  A run of the command line, from its words to what it leaves behind.
-/
import EsFeatures.Scan.Basic

namespace EsFeatures.CommandLine

open Files (FileTree)
open Scan (Outcome Parser RunError)

/-- A text filled up with blanks to a width. -/
def padRight (width : Nat) (text : String) : String :=
  text ++ String.ofList (List.replicate (width - text.length) ' ')

/-- The width of the names in the list of features. -/
def nameWidth : Nat := 26

/-- The line about a feature. -/
def featureLine (feature : Feature) : String :=
  "  " ++ padRight nameWidth feature.name ++ " " ++ feature.label ++
    s!"  (on {kindOf feature})\n"

/-- The list of features. -/
def featureList : String :=
  s!"Detected features ({Feature.all.length}):\n\n" ++
    String.join (Feature.all.map featureLine)

/-- What is said about a command line that cannot be understood. -/
def Misuse.console (cause : Misuse) : Console :=
  { err := usage ++ "escheck: error: " ++ cause.message ++ "\n" }

/-- Runs the command line. -/
def run (parse : Parser) (env : Environment) (tree : FileTree) (words : List String) :
    Except RunError Outcome :=
  match Invocation.ofWords words with
  | .error cause =>
    .ok { exit := Scan.exitFailure, console := cause.console, files := tree }
  | .ok .help => .ok { exit := Scan.exitClean, console := .ofText helpText, files := tree }
  | .ok .listFeatures =>
    .ok { exit := Scan.exitClean, console := .ofText featureList, files := tree }
  | .ok (.scan job) => Scan.run parse env tree job

end EsFeatures.CommandLine
