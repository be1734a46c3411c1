/-
  EsFeatures.Text.Utf8

  Bytes and characters.  A byte sequence is read as a sequence of pieces: each
  piece is one encoded character or one longest ill-formed part, that is a lead
  byte with as many continuation bytes as still could belong to a character.  A
  lenient reading puts U+FFFD for every ill-formed piece; a strict one stops at
  the first and says where it lies and what is wrong.
-/

namespace EsFeatures.Text.Utf8

/-- The bytes that encode a text. -/
def encode (text : List Char) : List UInt8 :=
  text.flatMap String.utf8EncodeChar

/-- What makes a piece ill-formed. -/
inductive Fault where
  /-- The first byte begins no character. -/
  | startByte
  /-- A byte that should continue the character does not. -/
  | continuation
  /-- The bytes end inside a character. -/
  | truncated
deriving Repr, DecidableEq

/-- One step of reading bytes: a character or an ill-formed part, with the number
    of bytes that it takes. -/
inductive Piece where
  | char (c : Char) (width : Nat)
  | ill (fault : Fault) (width : Nat)
deriving Repr, DecidableEq

/-- The number of bytes that a piece takes. -/
def Piece.width : Piece → Nat
  | .char _ width => width
  | .ill _ width => width

/-- The character that stands for the piece in a lenient reading. -/
def Piece.replaced : Piece → Char
  | .char c _ => c
  | .ill _ _ => Char.ofNat 0xfffd

/-- Whether a byte lies between two values, both included. -/
def within (low high : Nat) (b : UInt8) : Bool :=
  low ≤ b.toNat && b.toNat ≤ high

/-- The six payload bits of a continuation byte. -/
def payload (b : UInt8) : Nat :=
  b.toNat % 64

/-- The least byte that may follow a lead byte: some second bytes would spell a
    character in more bytes than it needs. -/
def secondLow (lead : UInt8) : Nat :=
  if lead.toNat = 0xe0 then 0xa0 else if lead.toNat = 0xf0 then 0x90 else 0x80

/-- The greatest byte that may follow a lead byte: some second bytes would spell a
    surrogate or lie beyond the last character. -/
def secondHigh (lead : UInt8) : Nat :=
  if lead.toNat = 0xed then 0x9f else if lead.toNat = 0xf4 then 0x8f else 0xbf

/-- Whether a byte may continue a character after its second byte. -/
def continues (b : UInt8) : Bool :=
  within 0x80 0xbf b

/-- A character of two bytes. -/
def twoBytes (lead : UInt8) : List UInt8 → Piece
  | [] => .ill .truncated 1
  | b :: _ =>
    if continues b then .char (Char.ofNat (lead.toNat % 32 * 64 + payload b)) 2
    else .ill .continuation 1

/-- A character of three bytes. -/
def threeBytes (lead : UInt8) : List UInt8 → Piece
  | [] => .ill .truncated 1
  | b :: rest =>
    if within (secondLow lead) (secondHigh lead) b then
      match rest with
      | [] => .ill .truncated 2
      | c :: _ =>
        if continues c then
          .char (Char.ofNat (lead.toNat % 16 * 4096 + payload b * 64 + payload c)) 3
        else .ill .continuation 2
    else .ill .continuation 1

/-- A character of four bytes. -/
def fourBytes (lead : UInt8) : List UInt8 → Piece
  | [] => .ill .truncated 1
  | b :: rest =>
    if within (secondLow lead) (secondHigh lead) b then
      match rest with
      | [] => .ill .truncated 2
      | c :: rest =>
        if continues c then
          match rest with
          | [] => .ill .truncated 3
          | d :: _ =>
            if continues d then
              .char (Char.ofNat
                (lead.toNat % 8 * 262144 + payload b * 4096 + payload c * 64 + payload d)) 4
            else .ill .continuation 3
        else .ill .continuation 2
    else .ill .continuation 1

/-- The piece that begins with the byte `lead` and goes on with `rest`. -/
def next (lead : UInt8) (rest : List UInt8) : Piece :=
  if lead.toNat < 0x80 then .char (Char.ofNat lead.toNat) 1
  else if lead.toNat < 0xc2 then .ill .startByte 1
  else if lead.toNat < 0xe0 then twoBytes lead rest
  else if lead.toNat < 0xf0 then threeBytes lead rest
  else if lead.toNat < 0xf5 then fourBytes lead rest
  else .ill .startByte 1

/-- What follows a piece is shorter than what it was taken from. -/
theorem length_drop_lt_length_cons (n : Nat) (lead : UInt8) (rest : List UInt8) :
    (rest.drop n).length < (lead :: rest).length := by
  rw [List.length_drop, List.length_cons]
  omega

/-- Appends the pieces of a byte sequence to those already read. -/
def piecesFrom (done : Array Piece) : List UInt8 → Array Piece
  | [] => done
  | lead :: rest =>
    let piece := next lead rest
    piecesFrom (done.push piece) (rest.drop (piece.width - 1))
termination_by bytes => bytes.length
decreasing_by exact length_drop_lt_length_cons ..

/-- The pieces of a byte sequence, in order. -/
def pieces (bytes : List UInt8) : List Piece :=
  (piecesFrom #[] bytes).toList

/-- The text that bytes encode, with U+FFFD for every ill-formed piece. -/
def decode (bytes : List UInt8) : List Char :=
  (pieces bytes).map Piece.replaced

/-- Where and why bytes encode no text: the ill-formed piece begins at byte
    `start`, takes `width` bytes and begins with `lead`. -/
structure DecodeError where
  start : Nat
  width : Nat
  lead : UInt8
  fault : Fault
deriving Repr, DecidableEq

/-- The wording of a fault. -/
def Fault.message : Fault → String
  | .startByte => "invalid start byte"
  | .continuation => "invalid continuation byte"
  | .truncated => "unexpected end of data"

/-- Two hexadecimal digits of a byte. -/
def hexByte (b : UInt8) : String :=
  String.ofList [Nat.digitChar (b.toNat / 16), Nat.digitChar (b.toNat % 16)]

/-- The wording of a decoding error: one byte is shown, several are counted. -/
def DecodeError.message (e : DecodeError) : String :=
  let place :=
    if e.width = 1 then s!"byte 0x{hexByte e.lead} in position {e.start}"
    else s!"bytes in position {e.start}-{e.start + e.width - 1}"
  "'utf-8' codec can't decode " ++ place ++ ": " ++ e.fault.message

/-- Strict reading from byte position `start`, after the characters `done`. -/
def decodeFrom? (start : Nat) (done : Array Char) :
    List UInt8 → Except DecodeError (List Char)
  | [] => .ok done.toList
  | lead :: rest =>
    match next lead rest with
    | .char c width => decodeFrom? (start + width) (done.push c) (rest.drop (width - 1))
    | .ill fault width => .error ⟨start, width, lead, fault⟩
termination_by bytes => bytes.length
decreasing_by exact length_drop_lt_length_cons ..

/-- The text that bytes encode, or the first place where they encode none. -/
def decode? (bytes : List UInt8) : Except DecodeError (List Char) :=
  decodeFrom? 0 #[] bytes

end EsFeatures.Text.Utf8
