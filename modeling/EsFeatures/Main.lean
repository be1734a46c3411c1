/-
  EsFeatures.Main

  The command line program.  It takes from the disk what a job can reach, runs
  the job on that, and puts what has changed back.
-/
import EsFeatures.CommandLine.Run
import EsFeatures.Script.Grammar

namespace EsFeatures.Disk

open CommandLine (Invocation Job)
open Files (Entry FileTree Path Place)

/-- The path of a place on disk. -/
def pathOf (place : Place) : String :=
  "/" ++ "/".intercalate place

/-- What stands at a place on disk. -/
def load? (place : Place) : IO (Option Entry) := do
  try
    match (← ((← IO.currentDir) / pathOf place).metadata).type with
    | .dir => return some .directory
    | .file =>
      try return some (.file (← IO.FS.readBinFile (pathOf place)).toList)
      catch _ => return some .locked
    | _ => return some .device
  catch _ => return none

/-- A tree with what stands at the places on the way along a path. -/
def loadWay (tree : FileTree) (path : Path) : IO FileTree := do
  let mut tree := tree
  for place in Place.way (tree.origin path) path.names do
    if place ≠ [] then
      if let some entry ← load? place then
        tree := tree.insert place entry
  return tree

/-- A tree with everything below a directory. -/
partial def loadBelow (tree : FileTree) (place : Place) : IO FileTree := do
  let mut tree := tree
  for found in ← ((← IO.currentDir) / pathOf place).readDir do
    let next := place ++ [found.fileName]
    if let some entry ← load? next then
      tree := tree.insert next entry
      if entry = .directory then
        tree ← loadBelow tree next
  return tree

/-- The part of the disk that a job can reach. -/
def snapshot (job : Job) : IO FileTree := do
  let home := (Path.ofText (← IO.currentDir).toString).names
  let mut tree : FileTree := { entries := [], home }
  tree ← loadWay tree { lead := 1, names := home }
  let input := Path.ofText job.input
  tree ← loadWay tree input
  if let some place := tree.place? input then
    if tree.isDirectory place then
      tree ← loadBelow tree place
  if let some directory := Scan.outputDirectory? job then
    tree ← loadWay tree (.ofTextWithDots (Scan.outputPath job directory))
  return tree

/-- Puts what a run has changed back on disk. -/
def store (before after : FileTree) : IO Unit := do
  for (place, entry) in before.changes after do
    match entry with
    | .directory => IO.FS.createDir (pathOf place)
    | .file bytes => IO.FS.writeBinFile (pathOf place) ⟨bytes.toArray⟩
    | .locked | .device => pure ()

/-- The environment of the process. -/
def environment : IO Environment := do
  let isSet (name : String) : IO Bool := do
    return ((← IO.getEnv name).getD "") != ""
  return { plain := ← isSet "ESCHECK_NO_COLORS", debug := ← isSet "ESCHECK_DEBUG" }

end EsFeatures.Disk

open EsFeatures in
/-- Runs the command line on the files of the disk. -/
def main (words : List String) : IO UInt32 := do
  let before ← match CommandLine.Invocation.ofWords words with
    | .ok (.scan job) => Disk.snapshot job
    | _ => pure { entries := [], home := [] }
  match CommandLine.run Script.parse (← Disk.environment) before words with
  | .error e =>
    IO.eprintln e.message
    return 1
  | .ok outcome =>
    Disk.store before outcome.files
    IO.print outcome.console.out
    IO.eprint outcome.console.err
    return UInt32.ofNat outcome.exit
