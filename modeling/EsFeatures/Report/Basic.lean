/-
  EsFeatures.Report.Basic

  Reports on the findings of a list of files, in three modes: short with a line
  for each finding, full with its label and snippet, and JSON.
-/
import EsFeatures.Console
import EsFeatures.Feature.Collector
import EsFeatures.Report.Json
import EsFeatures.Text.Abridged
import EsFeatures.Text.Position

namespace EsFeatures

open Text (Position)

/-- What a scan found out about one file. -/
structure FileResult where
  path : String
  source : String := ""
  findings : List Finding := []
  error : Option String := none
deriving Repr, DecidableEq

/-- How much a report says. -/
inductive ReportMode where
  | short | full | json
deriving Repr, DecidableEq, Inhabited

namespace ReportMode

/-- All modes, in the order in which they are offered. -/
def all : List ReportMode := [.short, .full, .json]

/-- The name of a mode. -/
def name : ReportMode → String
  | .short => "short"
  | .full => "full"
  | .json => "json"

/-- The mode with a given name. -/
def ofName? (name : String) : Option ReportMode :=
  all.find? (·.name == name)

/-- What is said of a name that no mode has. -/
def unknownMessage (name : String) : String :=
  Text.quoted name ++ " is not a valid OutputMode"

end ReportMode

namespace Report

/-- The escape sequences that set off parts of a text report. -/
structure Palette where
  bold : String
  dim : String
  yellow : String
  reset : String
deriving Repr, DecidableEq

/-- The palette of a terminal. -/
def Palette.colored : Palette :=
  { bold := "\x1b[1m", dim := "\x1b[2m", yellow := "\x1b[33m", reset := "\x1b[0m" }

/-- The palette without colours. -/
def Palette.plain : Palette :=
  { bold := "", dim := "", yellow := "", reset := "" }

/-- The palette of an environment. -/
def Palette.ofEnvironment (env : Environment) : Palette :=
  if env.plain then .plain else .colored

/-- A finding with the file in which it was found. -/
structure Entry where
  file : FileResult
  finding : Finding

/-- The findings of all files, in order. -/
def entries (results : List FileResult) : List Entry :=
  results.flatMap fun file => file.findings.map (⟨file, ·⟩)

/-- The line and column of a finding. -/
def Entry.position (e : Entry) : Position :=
  Position.ofOffset e.file.source e.finding.offset

/-- The place of a finding: path, line and column. -/
def Entry.location (e : Entry) : String :=
  s!"{e.file.path}:{e.position.line}:{e.position.column}"

/-- A qualifier between two marks; nothing when there is none. -/
def qualifierText (opening closing : String) (qualifier : Scalar) : String :=
  if qualifier.isSet then opening ++ qualifier.display ++ closing else ""

/-- The record of a finding in a short report. -/
def shortRecord (p : Palette) (e : Entry) : String :=
  p.bold ++ e.location ++ p.reset ++ "  " ++ p.yellow ++ e.finding.feature.name ++ p.reset ++
    qualifierText " (" ")" e.finding.qualifier ++ "\n"

/-- The widest snippet in a full report. -/
def snippetWidth : Int := 80

/-- The snippet line of a finding; nothing when the snippet is empty. -/
def snippetLine (p : Palette) (snippet : String) : String :=
  if snippet.isEmpty then ""
  else "  " ++ p.dim ++ "| " ++ Text.oneLine snippet snippetWidth ++ p.reset ++ "\n"

/-- The record of a finding in a full report, with the empty line after it. -/
def fullRecord (p : Palette) (e : Entry) : String :=
  p.bold ++ e.location ++ p.reset ++ "\n" ++
    "  " ++ p.yellow ++ e.finding.feature.name ++ p.reset ++ " - " ++ e.finding.label ++
    qualifierText " [" "]" e.finding.qualifier ++ "\n" ++
    snippetLine p e.finding.snippet ++ "\n"

/-- A text without the line feeds at its end. -/
def trimLineFeeds (text : String) : String :=
  String.ofList (text.toList.reverse.dropWhile (· == '\n')).reverse

/-- The messages of a short or full report, given the record of a finding. -/
def textMessages (record : Entry → String) (results : List FileResult) : List String :=
  match entries results with
  | [] =>
    let scanned := results.filter (·.error.isNone)
    [s!"No ES6+ features found ({scanned.length} file(s) scanned)"]
  | found =>
    let files := results.filter (!·.findings.isEmpty)
    [s!"\nFound {found.length} ES6+ feature(s) in {files.length} file(s):\n",
     trimLineFeeds (String.join (found.map record))]

/-- A finding as a JSON value. -/
def Entry.json (e : Entry) : Json :=
  .object
    [("type", .scalar (.text e.finding.feature.name)),
     ("name", .scalar (.text e.finding.label)),
     ("qualifier", .scalar e.finding.qualifier),
     ("snippet", .scalar (.text e.finding.snippet)),
     ("offset", .scalar (.integer e.finding.offset)),
     ("line", .scalar (.integer e.position.line)),
     ("column", .scalar (.integer e.position.column))]

/-- The result of a file as a JSON value: its error, or its findings. -/
def fileJson (file : FileResult) : Json :=
  match file.error with
  | some error =>
    .object [("path", .scalar (.text file.path)), ("error", .scalar (.text error))]
  | none =>
    .object
      [("path", .scalar (.text file.path)),
       ("findings", .list (file.findings.map fun finding => Entry.json ⟨file, finding⟩))]

/-- The number of findings in all files. -/
def total (results : List FileResult) : Nat :=
  results.foldr (fun file n => file.findings.length + n) 0

/-- The results of all files as a JSON value. -/
def json (results : List FileResult) : Json :=
  .object
    [("files", .list (results.map fileJson)),
     ("total", .scalar (.integer (total results)))]

/-- The messages of a report, in the order in which they are printed. -/
def messages (p : Palette) (mode : ReportMode) (results : List FileResult) : List String :=
  match mode with
  | .short => textMessages (shortRecord p) results
  | .full => textMessages (fullRecord p) results
  | .json => [(json results).pretty]

/-- The text of a report: each message with a line feed behind it. -/
def text (p : Palette) (mode : ReportMode) (results : List FileResult) : String :=
  String.join ((messages p mode results).map (· ++ "\n"))

/-- Where a report goes: to the output and, if a copy of it is kept, to the copy. -/
structure Streams where
  out : String := ""
  copy : Option String := none
deriving Repr, DecidableEq

/-- A message printed to the output, then to the copy. -/
def Streams.print (streams : Streams) (message : String) : Streams :=
  { out := streams.out ++ message ++ "\n"
    copy := streams.copy.map fun copy => copy ++ message ++ "\n" }

/-- A report printed message by message. -/
def print (p : Palette) (mode : ReportMode) (results : List FileResult) (streams : Streams) :
    Streams :=
  (messages p mode results).foldl Streams.print streams

/-- The number of findings that a report counts. -/
def count (mode : ReportMode) (results : List FileResult) : Nat :=
  match mode with
  | .json => total results
  | _ => (entries results).length

end Report

end EsFeatures
