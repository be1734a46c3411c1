/-
  EsFeatures.Scan.Inspection

  A look at what the parser makes of files: their concrete trees, and whether
  any of them has a fault.
-/
import EsFeatures.Cst.Outline
import EsFeatures.Scan.Verdict

namespace EsFeatures.Scan

open Files (FileTree Path)

/-! ## Trees -/

/-- What is printed of the tree of a source. -/
def outlineText (path : Path) (source : String) (tree : Cst) : String :=
  let map := Text.ByteMap.ofSource source
  s!"\n=== AST for {path.text} ===\n" ++
    String.join (Cst.outline map Cst.outlineDepth 0 tree) ++ "=== End AST ===\n\n"

/-- What is written about the tree of a file. -/
def outlineFile (parse : Parser) (env : Environment) (tree : FileTree) (path : Path) :
    Console :=
  match readSource tree path with
  | .error error => error.console env path
  | .ok source => .ofText (outlineText path source (parse source))

/-! ## Faults -/

/-- The faults in the tree of a source. -/
def sourceFaults (source : String) (tree : Cst) : List Cst.Fault :=
  Cst.faults (.ofSource source) Cst.defaultFaultDepth 0 tree

/-- The line about a fault. -/
def faultLine (fault : Cst.Fault) : String :=
  let name := if fault.label.missing then "MISSING " ++ fault.label.kind else "ERROR"
  Cst.indent fault.depth.toNat ++ name ++ " " ++ fault.label.extent ++ " " ++
    Text.quoted fault.text

/-- The faults of a file, or why it has no source. -/
def fileFaults (parse : Parser) (tree : FileTree) (path : Path) :
    Except ReadError (List Cst.Fault) :=
  match readSource tree path with
  | .error error => .error error
  | .ok source => .ok (sourceFaults source (parse source))

/-- Whether a file can be read and its tree is free of faults. -/
def isSound (parse : Parser) (tree : FileTree) (path : Path) : Bool :=
  match fileFaults parse tree path with
  | .ok [] => true
  | _ => false

/-- What is logged about the faults of a file. -/
def faultConsole (parse : Parser) (env : Environment) (tree : FileTree) (path : Path) :
    Console :=
  match fileFaults parse tree path with
  | .error error => error.console env path
  | .ok [] => {}
  | .ok found =>
    let head := s!"PARSER ERRORS FOUND in {path.text}: {found.length} error node(s)"
    .join ((head :: found.map faultLine).map (.ofLog env .error))

end EsFeatures.Scan
