/-
  EsFeatures.Text.ByteMap

  From byte offsets in the encoding of a source to character offsets in the
  source.  When bytes and characters coincide every integer stands for itself;
  otherwise a table gives the character of each byte, with the length of the
  source as its last entry.
-/
import EsFeatures.Text.Slice
import EsFeatures.Text.Utf8

namespace EsFeatures.Text

/-- Why a negative byte offset has no character offset. -/
inductive OffsetError where
  /-- It lies before the first entry of the table. -/
  | beforeTable
  /-- It does not even fit into a machine word. -/
  | beyondWord
deriving Repr, DecidableEq

/-- The wording of an offset error. -/
def OffsetError.message : OffsetError → String
  | .beforeTable => "list index out of range"
  | .beyondWord => "cannot fit 'int' into an index-sized integer"

/-- The encoding of a source together with the character of each byte.  There is
    no table when each character takes one byte. -/
structure ByteMap where
  chars : Nat
  bytes : Array UInt8
  table : Option (Array Nat)

/-- The character index of every byte of a text's encoding, then the length. -/
def charTable (text : List Char) : List Nat :=
  (text.zipIdx.flatMap fun entry => List.replicate entry.1.utf8Size entry.2) ++ [text.length]

/-- The map of a source. -/
def ByteMap.ofSource (source : String) : ByteMap :=
  let text := source.toList
  let bytes := Utf8.encode text
  { chars := text.length
    bytes := bytes.toArray
    table := if bytes.length = text.length then none else some (charTable text).toArray }

/-- The least offset that a machine word holds. -/
def leastOffset : Int := -9223372036854775808

/-- The character offset of a byte offset.  Past the end it is the length of the
    source; a negative offset counts from the end of the table. -/
def ByteMap.toChar (map : ByteMap) (offset : Int) : Except OffsetError Int :=
  match map.table with
  | none => .ok offset
  | some table =>
    if 0 ≤ offset then
      match table[offset.toNat]? with
      | some index => .ok index
      | none => .ok map.chars
    else if offset < leastOffset then .error .beyondWord
    else if table.size + offset < 0 then .error .beforeTable
    else
      match table[(table.size + offset).toNat]? with
      | some index => .ok index
      | none => .error .beforeTable

/-- The text of a range of bytes; a character cut by the range leaves U+FFFD. -/
def ByteMap.text (map : ByteMap) (start stop : Int) : String :=
  let range := map.bytes.extract (bound map.bytes.size start) (bound map.bytes.size stop)
  String.ofList (Utf8.decode range.toList)

end EsFeatures.Text
