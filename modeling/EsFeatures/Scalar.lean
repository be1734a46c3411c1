/-
  EsFeatures.Scalar

  Plain values: what a node's attribute, a finding's qualifier or a logged
  argument can hold.
-/

namespace EsFeatures

/-- A plain value. -/
inductive Scalar where
  | null
  | flag (value : Bool)
  | integer (value : Int)
  | text (value : String)
deriving Repr, DecidableEq, Inhabited

/-- Whether a value counts as set: nothing, false, zero and the empty text do
    not. -/
def Scalar.isSet : Scalar → Bool
  | .null => false
  | .flag value => value
  | .integer value => value != 0
  | .text value => value != ""

/-- A value as it is shown in running text. -/
def Scalar.display : Scalar → String
  | .null => "None"
  | .flag true => "True"
  | .flag false => "False"
  | .integer value => toString value
  | .text value => value

end EsFeatures
