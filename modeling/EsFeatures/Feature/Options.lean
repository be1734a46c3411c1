/-
  EsFeatures.Feature.Options

  How much of what is found is kept: the number of findings and the length of
  their snippets.
-/

namespace EsFeatures

/-- The bounds of one detection. -/
structure Options where
  resultLimit : Int := 2
  snippetMaxLength : Int := 100
deriving Repr, DecidableEq, Inhabited

namespace Options

/-- The types of values that are no integers. -/
inductive ValueType where
  | text | decimal | flag | list | mapping
deriving Repr, DecidableEq

/-- The value of a setting as it comes in. -/
inductive Setting where
  | unset
  | integer (value : Int)
  | other (type : ValueType)
deriving Repr, DecidableEq

/-- What may be asked for: nothing, settings by name, or a record of settings. -/
inductive Request where
  | defaults
  | mapping (entries : List (String × Setting))
  | record (limit size : Setting)
deriving Repr, DecidableEq

/-- The settings that there are. -/
inductive Key where
  | resultLimit | snippetMaxLength
deriving Repr, DecidableEq

/-- The name of a setting. -/
def Key.name : Key → String
  | .resultLimit => "result_limit"
  | .snippetMaxLength => "snippet_max_length"

/-- Why a request makes no options. -/
inductive Invalid where
  /-- Names that no setting has. -/
  | unknownKeys (names : List String)
  /-- A setting with a value that is no integer. -/
  | notInteger (key : Key) (type : ValueType)
deriving Repr, DecidableEq

/-- The word for a type of value. -/
def ValueType.word : ValueType → String
  | .text => "str"
  | .decimal => "float"
  | .flag => "bool"
  | .list => "list"
  | .mapping => "dict"

/-- The wording of an invalid request. -/
def Invalid.message : Invalid → String
  | .unknownKeys names => "Unknown detection option(s): " ++ ", ".intercalate names
  | .notInteger key type => s!"{key.name} must be an int, got {type.word}"

/-- The value of a setting, or its default when it is unset. -/
def checkSetting (key : Key) (default : Int) : Setting → Except Invalid Int
  | .unset => .ok default
  | .integer value => .ok value
  | .other type => .error (.notInteger key type)

/-- Options with a negative snippet length counted as zero. -/
def clamped (options : Options) : Options :=
  { options with snippetMaxLength := max options.snippetMaxLength 0 }

/-- The options of two settings.  A negative snippet length counts as zero. -/
def ofSettings (limit size : Setting) : Except Invalid Options := do
  let limit ← checkSetting .resultLimit ({} : Options).resultLimit limit
  let size ← checkSetting .snippetMaxLength ({} : Options).snippetMaxLength size
  return clamped { resultLimit := limit, snippetMaxLength := size }

/-- Whether a setting has the given name. -/
def isKey (name : String) : Bool :=
  name == Key.resultLimit.name || name == Key.snippetMaxLength.name

/-- The names in a mapping that no setting has, in increasing order. -/
def unknownNames (entries : List (String × Setting)) : List String :=
  ((entries.map (·.1)).filter (!isKey ·)).mergeSort (· ≤ ·)

/-- The options of a request.  Unknown names are refused before any value is
    looked at. -/
def ofRequest : Request → Except Invalid Options
  | .defaults => .ok {}
  | .mapping entries =>
    match unknownNames entries with
    | [] =>
      ofSettings ((entries.lookup Key.resultLimit.name).getD .unset)
        ((entries.lookup Key.snippetMaxLength.name).getD .unset)
    | names => .error (.unknownKeys names)
  | .record limit size => ofSettings limit size

end Options

end EsFeatures
