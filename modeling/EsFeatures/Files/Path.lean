/-
  EsFeatures.Files.Path

  Paths and their texts.  A path is a list of names behind no slash, one slash,
  or exactly two; repeated slashes and names of a single dot say nothing and are
  left out, while `..` is kept, because what it leads to depends on the files.
-/

namespace EsFeatures.Files

/-! ## Names in a text -/

/-- The pieces of a text between its slashes. -/
def slashPieces : List Char → List (List Char)
  | [] => [[]]
  | c :: rest =>
    if c = '/' then [] :: slashPieces rest
    else
      match slashPieces rest with
      | [] => [[c]]
      | piece :: pieces => (c :: piece) :: pieces

/-- No piece holds a slash. -/
theorem slash_notMem_of_mem_slashPieces {text piece : List Char}
    (h : piece ∈ slashPieces text) : '/' ∉ piece := by
  induction text generalizing piece with
  | nil =>
    rw [slashPieces, List.mem_singleton] at h
    rw [h]
    exact List.not_mem_nil
  | cons c rest ih =>
    rw [slashPieces] at h
    by_cases hc : c = '/'
    · rw [if_pos hc] at h
      rcases List.mem_cons.1 h with rfl | hr
      · exact List.not_mem_nil
      · exact ih hr
    · rw [if_neg hc] at h
      cases hp : slashPieces rest with
      | nil =>
        rw [hp] at h
        grind
      | cons first others =>
        rw [hp] at h ih
        grind

/-- The names in a text, with those of a single dot. -/
def namesWithDots (text : String) : List String :=
  ((slashPieces text.toList).filter (!·.isEmpty)).map String.ofList

/-- The slashes in front of a path: two count as such, more are as good as one. -/
def leadOf (text : String) : Nat :=
  match (text.toList.takeWhile (· == '/')).length with
  | 0 => 0
  | 2 => 2
  | _ => 1

/-! ## Paths -/

/-- A path: the slashes in front and the names. -/
structure Path where
  lead : Nat
  names : List String
deriving Repr, DecidableEq, Inhabited

namespace Path

/-- The path that a text spells. -/
def ofText (text : String) : Path :=
  { lead := leadOf text, names := (namesWithDots text).filter (· != ".") }

/-- The path that a text spells, with names of a single dot kept. -/
def ofTextWithDots (text : String) : Path :=
  { lead := leadOf text, names := namesWithDots text }

/-- The text of a path; a path without names or slashes is a single dot. -/
def text (path : Path) : String :=
  if path.lead = 0 ∧ path.names = [] then "."
  else String.ofList (List.replicate path.lead '/') ++ "/".intercalate path.names

/-- A path continued by further names. -/
def append (path : Path) (names : List String) : Path :=
  { path with names := path.names ++ names }

/-- The path without its last name. -/
def parent (path : Path) : Path :=
  { path with names := path.names.dropLast }

end Path

/-! ## The name of what a path leads to -/

/-- Takes a name into a list of names, the last one first: `..` takes away the
    name before it, if there is one to take away. -/
def foldName (absolute : Bool) (names : List String) (name : String) : List String :=
  if name ≠ ".." then name :: names
  else
    match names with
    | [] => if absolute then [] else [".."]
    | last :: before => if last = ".." then name :: names else before

/-- The name of what a path leads to, as far as its text tells: a path that comes
    back to where it starts has the name of a single dot. -/
def baseName (text : String) : String :=
  let path := Path.ofText text
  match path.names.foldl (foldName (path.lead != 0)) [] with
  | name :: _ => name
  | [] => if path.lead = 0 then "." else ""

/-- The part of a name from its last dot on; nothing when the dot stands at either
    end of the name or is missing. -/
def suffix (name : String) : String :=
  let backwards := name.toList.reverse
  let extension := backwards.takeWhile (· != '.')
  match backwards.dropWhile (· != '.') with
  | dot :: _ :: _ =>
    if extension.isEmpty then "" else String.ofList (dot :: extension.reverse)
  | _ => ""

/-- A file name put behind the text of a directory. -/
def joinText (directory name : String) : String :=
  if directory.toList.getLast? = some '/' ∨ directory = "" then directory ++ name
  else directory ++ "/" ++ name

end EsFeatures.Files
