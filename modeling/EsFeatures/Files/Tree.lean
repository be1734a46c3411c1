/-
  EsFeatures.Files.Tree

  A tree of files, as everything that exists by its place below the top.  Paths
  are followed name by name, so each name but the last has to lead to a
  directory.  Directories are made and files are written at the place to which a
  path leads; nothing else changes.
-/
import EsFeatures.Files.Path
import EsFeatures.Text.Quoted

namespace EsFeatures.Files

/-- A place: the names on the way from the top. -/
abbrev Place := List String

/-- The place to which a name leads from a directory: itself, the one above it, or
    one in it. -/
def Place.step (place : Place) (name : String) : Place :=
  if name = "." then place
  else if name = ".." then place.dropLast
  else place ++ [name]

/-- The places on the way along names, the first and the last one included. -/
def Place.way (place : Place) : List String → List Place
  | [] => [place]
  | name :: rest => place :: Place.way (Place.step place name) rest

/-- What can stand at a place. -/
inductive Entry where
  | file (bytes : List UInt8)
  /-- A file that may not be opened. -/
  | locked
  | directory
  /-- Something else, such as the null device. -/
  | device
deriving Repr, DecidableEq, Inhabited

/-- Whether an entry is a file, which may be opened or not. -/
def Entry.isFile : Entry → Bool
  | .file _ | .locked => true
  | .directory | .device => false

/-! ## Errors -/

/-- Why a directory cannot be made, or a file cannot be opened. -/
inductive FileCause where
  | missing | denied | alreadyExists | notDirectory | isDirectory
deriving Repr, DecidableEq

/-- A file error, with the path that was asked for. -/
structure FileError where
  cause : FileCause
  path : String
deriving Repr, DecidableEq

/-- The number of a cause among system errors. -/
def FileCause.number : FileCause → Nat
  | .missing => 2
  | .denied => 13
  | .alreadyExists => 17
  | .notDirectory => 20
  | .isDirectory => 21

/-- The wording of a cause. -/
def FileCause.text : FileCause → String
  | .missing => "No such file or directory"
  | .denied => "Permission denied"
  | .alreadyExists => "File exists"
  | .notDirectory => "Not a directory"
  | .isDirectory => "Is a directory"

/-- The wording of a file error. -/
def FileError.message (e : FileError) : String :=
  s!"[Errno {e.cause.number}] {e.cause.text}: {Text.quoted e.path}"

/-! ## Trees -/

/-- A tree of files with the place from which relative paths start. -/
structure FileTree where
  /-- Everything below the top. -/
  entries : List (Place × Entry)
  /-- The working directory. -/
  home : Place
deriving Repr, Inhabited

namespace FileTree

/-- What stands at a place; the top is a directory. -/
def get? (tree : FileTree) (place : Place) : Option Entry :=
  if place = [] then some .directory else tree.entries.lookup place

/-- Whether a directory stands at a place. -/
def isDirectory (tree : FileTree) (place : Place) : Bool :=
  tree.get? place == some .directory

/-- Puts an entry at a place, whatever stood there. -/
def insert (tree : FileTree) (place : Place) (entry : Entry) : FileTree :=
  { tree with entries := (place, entry) :: tree.entries.filter (·.1 != place) }

/-- An inserted entry stands at its place. -/
theorem get?_insert_self (tree : FileTree) {place : Place} (entry : Entry)
    (h : place ≠ []) : (tree.insert place entry).get? place = some entry := by
  rw [get?, if_neg h, insert, List.lookup_cons, beq_self_eq_true]

/-- An inserted entry leaves all other places as they were. -/
theorem get?_insert_of_ne (tree : FileTree) {place other : Place} (entry : Entry)
    (h : other ≠ place) : (tree.insert place entry).get? other = tree.get? other := by
  have kept (entries : List (Place × Entry)) :
      (entries.filter (·.1 != place)).lookup other = entries.lookup other := by
    induction entries with
    | nil => rfl
    | cons first rest ih =>
      by_cases hf : first.1 = place
      · rw [List.filter_cons_of_neg (by simp [hf]), ih, List.lookup_cons]
        rw [beq_false_of_ne (hf ▸ h)]
      · rw [List.filter_cons_of_pos (by simpa using hf), List.lookup_cons, List.lookup_cons, ih]
  rw [get?, get?, insert, List.lookup_cons, beq_false_of_ne h, kept]

/-- The place to which names lead from another place, when it exists. -/
def follow? (tree : FileTree) (place : Place) : List String → Option Place
  | [] => if (tree.get? place).isSome then some place else none
  | name :: rest =>
    if tree.isDirectory place then tree.follow? (Place.step place name) rest else none

/-- The place at which a path starts. -/
def origin (tree : FileTree) (path : Path) : Place :=
  if path.lead = 0 then tree.home else []

/-- The place to which a path leads, when it exists. -/
def place? (tree : FileTree) (path : Path) : Option Place :=
  tree.follow? (tree.origin path) path.names

/-- What a path leads to. -/
def find? (tree : FileTree) (path : Path) : Option Entry :=
  (tree.place? path).bind tree.get?

/-! ## Reading -/

/-- The bytes of the file to which a path leads. -/
def read (tree : FileTree) (path : Path) : Except FileError (List UInt8) :=
  match tree.find? path with
  | some (.file bytes) => .ok bytes
  | some .locked => .error ⟨.denied, path.text⟩
  | some .device => .ok []
  | some .directory => .error ⟨.isDirectory, path.text⟩
  | none => .error ⟨.missing, path.text⟩

/-- The names of an entry from a place on, if it is a file below it. -/
def namesBelow? (place : Place) (item : Place × Entry) : Option (List String) :=
  if item.2.isFile ∧ place.isPrefixOf item.1 ∧ place ≠ item.1 then
    some (item.1.drop place.length)
  else none

/-- The files below a place, each by its names from there on. -/
def filesBelow (tree : FileTree) (place : Place) : List (List String) :=
  tree.entries.filterMap (namesBelow? place)

/-! ## Making directories and writing files -/

/-- The place at which a new entry for a path would stand: its last name in the
    directory to which the names before it lead. -/
def newPlace (tree : FileTree) (text : String) : Except FileError Place :=
  let path := Path.ofTextWithDots text
  match tree.place? path.parent with
  | none => .error ⟨.missing, text⟩
  | some place =>
    if tree.isDirectory place then
      match path.names.getLast? with
      | some name => .ok (place ++ [name])
      | none => .error ⟨.isDirectory, text⟩
    else .error ⟨.notDirectory, text⟩

/-- Makes the directory to which a path leads, unless something stands there. -/
def makeDirectory (tree : FileTree) (text : String) : Except FileError FileTree :=
  if (tree.place? (.ofTextWithDots text)).isSome then .ok tree
  else do
    let place ← tree.newPlace text
    return tree.insert place .directory

/-- Whether a name of a text ends in front of position `i`. -/
def endsName (text : List Char) (i : Nat) : Bool :=
  ((text.take i).getLast?.any (· != '/')) && (text[i]?.all (· == '/'))

/-- The paths on the way to a path, from the first name on; the last one is the
    path itself. -/
def stages (text : String) : List String :=
  let chars := text.toList
  let ends := (List.range (chars.length + 1)).filter (endsName chars)
  (ends.dropLast.map fun i => String.ofList (chars.take i)) ++ [text]

/-- Makes the directory to which a path leads, and those on the way to it that
    are missing. -/
def makeDirectories (tree : FileTree) (text : String) : Except FileError FileTree := do
  let made ← (stages text).foldlM makeDirectory tree
  if made.find? (.ofTextWithDots text) = some .directory then return made
  else .error ⟨.alreadyExists, text⟩

/-- Writes a file, in place of the one that stood there if that may be opened; a
    device takes the bytes and keeps nothing. -/
def write (tree : FileTree) (text : String) (bytes : List UInt8) :
    Except FileError FileTree := do
  let place ← tree.newPlace text
  match tree.get? place with
  | some .directory => .error ⟨.isDirectory, text⟩
  | some .locked => .error ⟨.denied, text⟩
  | some .device => return tree
  | _ => return tree.insert place (.file bytes)

/-- What a later tree holds that an earlier one does not; a directory comes before
    what is in it. -/
def changes (before after : FileTree) : List (Place × Entry) :=
  (after.entries.filter fun (place, entry) => before.get? place != some entry).mergeSort
    fun a b => decide (a.1.length ≤ b.1.length)

end FileTree

end EsFeatures.Files
