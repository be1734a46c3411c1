/-
  EsFeatures.Scan.Basic

  A scan from the input path to the exit code.  The files at the path are looked
  at one by one, the report on all of them is printed, and a copy of it is saved
  when a directory is given for that.
-/
import EsFeatures.CommandLine.Invocation
import EsFeatures.Files.Sources
import EsFeatures.Scan.Inspection

namespace EsFeatures.Scan

open CommandLine (Job)
open Files (FileTree FileError Path)

/-- What a run leaves behind. -/
structure Outcome where
  exit : Nat
  console : Console
  files : FileTree

/-- Why a run breaks off. -/
inductive RunError where
  | file (error : FileError)
  | options (cause : Options.Invalid)
  /-- There is no mode to report in. -/
  | noMode
deriving Repr, DecidableEq

/-- The wording of why a run breaks off. -/
def RunError.message : RunError → String
  | .file error => error.message
  | .options cause => cause.message
  | .noMode => "[] is not a valid OutputMode"

/-- The exit code of a run that found nothing. -/
def exitClean : Nat := 0

/-- The exit code of a run that found something. -/
def exitFindings : Nat := 1

/-- The exit code of a run that failed. -/
def exitFailure : Nat := 2

/-! ## The parser check -/

/-- Checks that each file can be read and that its tree is free of faults. -/
def check (parse : Parser) (env : Environment) (tree : FileTree) (files : List Path) :
    Outcome :=
  let sound := files.all (isSound parse tree)
  let last :=
    if sound then Console.ofText "✓ Parser validation PASSED: No ERROR nodes found\n"
    else .ofLog env .error "Parser validation FAILED: ERROR nodes found in AST"
  { exit := if sound then exitClean else exitFindings
    console := .join
      (.ofText "Parser check mode: Validating parse trees...\n" ::
        files.map (faultConsole parse env tree) ++ [last])
    files := tree }

/-! ## The report -/

/-- The results of files, in order. -/
def results (parse : Parser) (options : Options) (tree : FileTree) (files : List Path) :
    List FileResult :=
  files.map fun path => (Verdict.ofFile parse options tree path).result path

/-- How many files gave no findings because something went wrong. -/
def failures (results : List FileResult) : Nat :=
  (results.filter (·.error.isSome)).length

/-- The exit code that results ask for. -/
def exitCode (mode : ReportMode) (results : List FileResult) : Nat :=
  if failures results ≠ 0 then exitFailure
  else if Report.count mode results ≠ 0 then exitFindings
  else exitClean

/-- The path of the copy of a report in a directory: it is named for the input. -/
def outputPath (job : Job) (directory : String) : String :=
  let ending := if job.mode = some .json then ".json" else ".txt"
  Files.joinText directory ("OUT-" ++ Files.baseName job.input ++ ending)

/-- The directory for the copy of a report, when there is to be one. -/
def outputDirectory? (job : Job) : Option String :=
  job.outputDir.filter (· != "")

/-- Saves the copy of a report, if there is to be one. -/
def saveReport (tree : FileTree) (job : Job) (report : String) :
    Except FileError FileTree :=
  match outputDirectory? job with
  | none => .ok tree
  | some directory => do
    let made ← tree.makeDirectories directory
    made.write (outputPath job directory) (Text.Utf8.encode report.toList)

/-- What is printed about the copy of a report. -/
def saveConsole (job : Job) : Console :=
  match outputDirectory? job with
  | none => {}
  | some directory => .ofText s!"Writing results to: {outputPath job directory}\n"

/-- A bound in a log. -/
def boundText : Option Int → String
  | some value => toString value
  | none => "[]"

/-- What is logged before files are scanned: their number when there are several,
    and the options as they were given. -/
def startConsole (env : Environment) (job : Job) (files : List Path) : Console :=
  .join
    [if files.length > 1 then .ofLog env .info s!"Scanning {files.length} file(s)" else {},
     .ofLog env .debug
       (s!"Options: limit={boundText job.limit}, " ++
         s!"snippet_size={boundText job.snippetSize}")]

/-- Whether a file has a source. -/
def isReadable (tree : FileTree) (path : Path) : Bool :=
  match readSource tree path with
  | .ok _ => true
  | .error _ => false

/-- The options for the detection in files.  Bad ones do no harm as long as no file
    has a source. -/
def optionsFor (tree : FileTree) (job : Job) (files : List Path) : Except RunError Options :=
  match job.options with
  | .ok options => .ok options
  | .error cause => if files.any (isReadable tree) then .error (.options cause) else .ok {}

/-- Scans files and reports on them. -/
def report (parse : Parser) (env : Environment) (tree : FileTree) (job : Job)
    (mode : ReportMode) (files : List Path) : Except RunError Outcome := do
  let options ← optionsFor tree job files
  let found := results parse options tree files
  let text := Report.text (.ofEnvironment env) mode found
  let saved ← (saveReport tree job text).mapError .file
  let failed := failures found
  return {
    exit := exitCode mode found
    console := .join
      ((if job.dump then files.map (outlineFile parse env tree) else []) ++
       [startConsole env job files] ++
       (files.map fun path =>
         (Verdict.ofFile parse options tree path).console env options path) ++
       [saveConsole job,
        .ofText text,
        if failed = 0 then {}
        else .ofLog env .error s!"{failed} file(s) could not be scanned"])
    files := saved }

/-- Does what a job asks for. -/
def run (parse : Parser) (env : Environment) (tree : FileTree) (job : Job) :
    Except RunError Outcome :=
  match job.mode, tree.sources (.ofText job.input) with
  | none, _ => .error .noMode
  | some _, [] => .ok
    { exit := exitFailure
      console := .ofLog env .error s!"No JavaScript source files found at: {job.input}"
      files := tree }
  | some mode, files =>
    if job.check then .ok (check parse env tree files)
    else report parse env tree job mode files

end EsFeatures.Scan
