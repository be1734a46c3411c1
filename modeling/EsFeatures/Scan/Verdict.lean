/-
  EsFeatures.Scan.Verdict

  What comes of a single file: it cannot be read, its source is rejected, or its
  features are known.  The verdict on a file depends on that file alone.
-/
import EsFeatures.Detection
import EsFeatures.Files.Tree
import EsFeatures.Report.Basic
import EsFeatures.Text.LineEnd
import EsFeatures.Text.Utf8

namespace EsFeatures.Scan

open Files (FileTree FileError Path)

/-- A parser: the concrete tree of every source. -/
abbrev Parser := String → Cst

/-! ## Sources -/

/-- Why a file has no source. -/
inductive ReadError where
  | file (error : FileError)
  | encoding (error : Text.Utf8.DecodeError)
deriving Repr, DecidableEq

/-- The wording of a read error. -/
def ReadError.message : ReadError → String
  | .file error => error.message
  | .encoding error => error.message

/-- The source that bytes hold: their text, with single line feeds. -/
def decodeSource (bytes : List UInt8) : Except ReadError String :=
  match Text.Utf8.decode? bytes with
  | .ok text => .ok (String.ofList (Text.unifyLineEnds text))
  | .error error => .error (.encoding error)

/-- The source in the file to which a path leads. -/
def readSource (tree : FileTree) (path : Path) : Except ReadError String :=
  match tree.read path with
  | .ok bytes => decodeSource bytes
  | .error error => .error (.file error)

/-- What is logged of a file that cannot be read. -/
def ReadError.console (env : Environment) (path : Path) (error : ReadError) : Console :=
  .ofLog env .error s!"Failed to read {path.text}: {error.message}"

/-! ## Verdicts -/

/-- What comes of a file. -/
inductive Verdict where
  | unreadable (error : ReadError)
  | rejected (source : String) (failure : Ast.Failure)
  | detected (source : String) (detection : Detection)

namespace Verdict

/-- The verdict on the file to which a path leads. -/
def ofFile (parse : Parser) (options : Options) (tree : FileTree) (path : Path) : Verdict :=
  match readSource tree path with
  | .error error => .unreadable error
  | .ok source =>
    match Detection.ofSource options source (parse source) with
    | .error failure => .rejected source failure
    | .ok detection => .detected source detection

/-- The verdict as a report takes it. -/
def result (path : Path) : Verdict → FileResult
  | .unreadable error => { path := path.text, error := some ("read error: " ++ error.message) }
  | .rejected source failure => { path := path.text, source, error := some failure.message }
  | .detected source detection =>
    { path := path.text, source, findings := detection.findings }

/-- What is logged of a verdict. -/
def console (env : Environment) (options : Options) (path : Path) : Verdict → Console
  | .unreadable error => error.console env path
  | .rejected _ failure =>
    .ofLog env .error s!"Failed to parse {path.text}: {failure.message}"
  | .detected source detection =>
    let lines := detection.trace options source ++
      [s!"{path.text}: {detection.findings.length} finding(s)"]
    .join (lines.map (.ofLog env .debug))

end Verdict

end EsFeatures.Scan
