/-
  EsFeatures.Files.Sources

  The source files at a path.  A path to a file gives that file, whatever its
  name; a path to a directory gives the files below it that have the suffix of a
  script and lie in no directory of dependencies, in the order of their texts.
-/
import EsFeatures.Files.Tree

namespace EsFeatures.Files

/-- The suffixes of scripts. -/
def scriptSuffixes : List String := [".js", ".mjs", ".cjs", ".jsx"]

/-- Directories whose files are left out. -/
def skippedDirectories : List String := ["node_modules", ".git", "bower_components"]

/-- Whether a file below a scanned directory counts, given its names from there
    on: the last name decides by its suffix, the others must not be skipped. -/
def isSource (names : List String) : Bool :=
  (names.getLast?.any fun name => scriptSuffixes.contains (suffix name)) &&
    names.dropLast.all fun name => !skippedDirectories.contains name

/-- The sources among the files of a directory, each by its names below it. -/
def sourcesAmong (directory : Path) (files : List (List String)) : List Path :=
  ((files.filter isSource).map directory.append).mergeSort
    fun a b => decide (a.text ≤ b.text)

/-- The source files at a path. -/
def FileTree.sources (tree : FileTree) (path : Path) : List Path :=
  match tree.place? path with
  | none => []
  | some place =>
    match tree.get? place with
    | some (.file _) | some .locked => [path]
    | some .directory => sourcesAmong path (tree.filesBelow place)
    | _ => []

end EsFeatures.Files
