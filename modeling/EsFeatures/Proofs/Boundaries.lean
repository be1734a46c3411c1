/-
  EsFeatures.Proofs.Boundaries

  Character boundaries in the encoding of a text.  The bytes of a character are read as
  that character, whatever follows them, so every text can be read back from its encoding.
  `width text i` is the number of bytes in front of the character with index `i`; from there
  on to the next character the byte map gives `i`, whether it has a table or not, and the
  bytes between two such places read as the characters between them.
-/
import EsFeatures.Proofs.Conversion

namespace EsFeatures.Text

namespace Utf8

/-! ## Reading an encoding back -/

section Bytes

variable {n low high : Nat}

theorem toNat_byte (h : n < 256) : (UInt8.ofNat n).toNat = n := by
  rw [UInt8.toNat_ofNat', Nat.mod_eq_of_lt (by omega)]

theorem within_byte (h : n < 256) (hlow : low ≤ n) (hhigh : n ≤ high) :
    within low high (UInt8.ofNat n) = true := by
  simp [within, toNat_byte h, hlow, hhigh]

theorem continues_byte (h : n < 64) : continues (UInt8.ofNat (n + 0x80)) = true :=
  within_byte (by omega) (by omega) (by omega)

theorem payload_byte (h : n < 64) : payload (UInt8.ofNat (n + 0x80)) = n := by
  rw [payload, toNat_byte (by omega)]
  omega

/-- A second byte fits its lead byte unless the two spell a surrogate, a character beyond
    the last one, or one that needs fewer bytes. -/
theorem within_second {lead : UInt8} (h : n < 64) (he0 : lead.toNat = 0xe0 → 0x20 ≤ n)
    (hed : lead.toNat = 0xed → n < 0x20) (hf0 : lead.toNat = 0xf0 → 0x10 ≤ n)
    (hf4 : lead.toNat = 0xf4 → n < 0x10) :
    within (secondLow lead) (secondHigh lead) (UInt8.ofNat (n + 0x80)) = true := by
  refine within_byte (by omega) ?_ ?_
  · rw [secondLow]
    split
    · omega
    · split <;> omega
  · rw [secondHigh]
    split
    · omega
    · split <;> omega

end Bytes

section Pieces

variable {v : Nat} (rest : List UInt8)

theorem next_oneByte (h : v ≤ 0x7f) : next (UInt8.ofNat v) rest = .char (Char.ofNat v) 1 := by
  have hlead := toNat_byte (n := v) (by omega)
  rw [next, hlead, if_pos (by omega)]

theorem next_twoBytes (hlow : 0x80 ≤ v) (hhigh : v ≤ 0x7ff) :
    next (UInt8.ofNat (v / 64 % 0x20 + 0xc0)) (UInt8.ofNat (v % 0x40 + 0x80) :: rest) =
      .char (Char.ofNat v) 2 := by
  have hlead := toNat_byte (n := v / 64 % 0x20 + 0xc0) (by omega)
  have hvalue : (v / 64 % 0x20 + 0xc0) % 32 * 64 + v % 0x40 = v := by omega
  rw [next, hlead, if_neg (by omega), if_neg (by omega), if_pos (by omega), twoBytes,
    continues_byte (by omega), payload_byte (by omega), hlead, hvalue]
  rfl

theorem next_threeBytes (hlow : 0x800 ≤ v) (hhigh : v ≤ 0xffff) (hvalid : v < 0xd800 ∨ 0xdfff < v) :
    next (UInt8.ofNat (v / 4096 % 0x10 + 0xe0))
        (UInt8.ofNat (v / 64 % 0x40 + 0x80) :: UInt8.ofNat (v % 0x40 + 0x80) :: rest) =
      .char (Char.ofNat v) 3 := by
  have hlead := toNat_byte (n := v / 4096 % 0x10 + 0xe0) (by omega)
  have hvalue : (v / 4096 % 0x10 + 0xe0) % 16 * 4096 + v / 64 % 0x40 * 64 + v % 0x40 = v := by omega
  have hsecond : within (secondLow (UInt8.ofNat (v / 4096 % 0x10 + 0xe0)))
      (secondHigh (UInt8.ofNat (v / 4096 % 0x10 + 0xe0)))
      (UInt8.ofNat (v / 64 % 0x40 + 0x80)) = true := by
    apply within_second <;> omega
  rw [next, hlead, if_neg (by omega), if_neg (by omega), if_neg (by omega), if_pos (by omega),
    threeBytes, hsecond, continues_byte (by omega), payload_byte (by omega),
    payload_byte (by omega),
    hlead, hvalue]
  rfl

theorem next_fourBytes (hlow : 0x10000 ≤ v) (hhigh : v < 0x110000) :
    next (UInt8.ofNat (v / 262144 % 0x08 + 0xf0))
        (UInt8.ofNat (v / 4096 % 0x40 + 0x80) :: UInt8.ofNat (v / 64 % 0x40 + 0x80) ::
          UInt8.ofNat (v % 0x40 + 0x80) :: rest) =
      .char (Char.ofNat v) 4 := by
  have hlead := toNat_byte (n := v / 262144 % 0x08 + 0xf0) (by omega)
  have hvalue : (v / 262144 % 0x08 + 0xf0) % 8 * 262144 + v / 4096 % 0x40 * 4096 +
      v / 64 % 0x40 * 64 + v % 0x40 = v := by omega
  have hsecond : within (secondLow (UInt8.ofNat (v / 262144 % 0x08 + 0xf0)))
      (secondHigh (UInt8.ofNat (v / 262144 % 0x08 + 0xf0)))
      (UInt8.ofNat (v / 4096 % 0x40 + 0x80)) = true := by
    apply within_second <;> omega
  rw [next, hlead, if_neg (by omega), if_neg (by omega), if_neg (by omega), if_neg (by omega),
    if_pos (by omega), fourBytes, hsecond, continues_byte (by omega), continues_byte (by omega),
    payload_byte (by omega), payload_byte (by omega), payload_byte (by omega), hlead, hvalue]
  rfl

end Pieces

/-- The bytes of a character are read as that character, whatever follows them. -/
theorem exists_next (c : Char) (rest : List UInt8) :
    ∃ lead tail, String.utf8EncodeChar c = lead :: tail ∧
      next lead (tail ++ rest) = .char c (tail.length + 1) := by
  have hvalid : c.toNat < 0xd800 ∨ 0xdfff < c.toNat ∧ c.toNat < 0x110000 := c.valid
  have hchar : Char.ofNat c.toNat = c := Char.ofNat_toNat c
  by_cases hone : c.toNat ≤ 0x7f
  · refine ⟨_, _, if_pos hone, ?_⟩
    exact (next_oneByte rest hone).trans (congrArg (Piece.char · 1) hchar)
  by_cases htwo : c.toNat ≤ 0x7ff
  · refine ⟨_, _, (if_neg hone).trans (if_pos htwo), ?_⟩
    exact (next_twoBytes rest (by omega) htwo).trans (congrArg (Piece.char · 2) hchar)
  by_cases hthree : c.toNat ≤ 0xffff
  · refine ⟨_, _, (if_neg hone).trans ((if_neg htwo).trans (if_pos hthree)), ?_⟩
    exact (next_threeBytes rest (by omega) hthree (by omega)).trans
      (congrArg (Piece.char · 3) hchar)
  · refine ⟨_, _, (if_neg hone).trans ((if_neg htwo).trans (if_neg hthree)), ?_⟩
    exact (next_fourBytes (v := c.toNat) rest (by omega) (by omega)).trans
      (congrArg (Piece.char · 4) hchar)

theorem toList_piecesFrom (done : Array Piece) (bytes : List UInt8) :
    (piecesFrom done bytes).toList = done.toList ++ pieces bytes := by
  -- What was read before the first byte plays no part in how the bytes are read.
  induction hlength : bytes.length using Nat.strongRecOn generalizing done bytes with
  | _ length ih =>
    cases bytes with
    | nil => simp [pieces, piecesFrom]
    | cons lead rest =>
      have hshorter : (rest.drop ((next lead rest).width - 1)).length < length :=
        hlength ▸ length_drop_lt_length_cons _ lead rest
      rw [pieces, piecesFrom, piecesFrom, ih _ hshorter _ _ rfl, ih _ hshorter _ _ rfl]
      simp

theorem pieces_cons (lead : UInt8) (rest : List UInt8) :
    pieces (lead :: rest) =
      next lead rest :: pieces (rest.drop ((next lead rest).width - 1)) := by
  rw [pieces, piecesFrom, toList_piecesFrom]
  rfl

/-- A character at the start of a sequence of bytes is read first. -/
theorem decode_char (c : Char) (rest : List UInt8) :
    decode (String.utf8EncodeChar c ++ rest) = c :: decode rest := by
  obtain ⟨lead, tail, hbytes, hnext⟩ := exists_next c rest
  have hwidth : (Piece.char c (tail.length + 1)).width - 1 = tail.length := rfl
  rw [hbytes, List.cons_append, decode, pieces_cons, hnext, hwidth, List.drop_left]
  rfl

theorem decode_encode_append (text : List Char) (rest : List UInt8) :
    decode (encode text ++ rest) = text ++ decode rest := by
  induction text with
  | nil => rfl
  | cons c text ih =>
    have hfirst : encode (c :: text) ++ rest =
        String.utf8EncodeChar c ++ (encode text ++ rest) := List.append_assoc _ _ _
    rw [hfirst, decode_char, ih, List.cons_append]

/-- Every text can be read back from its encoding. -/
theorem decode_encode (text : List Char) : decode (encode text) = text := by
  have hend := decode_encode_append text []
  have hnil : decode [] = [] := by
    rw [decode, pieces, piecesFrom]
    rfl
  rwa [hnil, List.append_nil, List.append_nil] at hend

/-! ## Widths of prefixes -/

theorem encode_append (xs ys : List Char) : encode (xs ++ ys) = encode xs ++ encode ys :=
  List.flatMap_append

theorem encode_take_append_drop (text : List Char) (i : Nat) :
    encode (text.take i) ++ encode (text.drop i) = encode text := by
  rw [← encode_append, List.take_append_drop]

theorem length_encode_cons (c : Char) (text : List Char) :
    (encode (c :: text)).length = c.utf8Size + (encode text).length := by
  rw [encode, List.flatMap_cons, List.length_append, String.length_utf8EncodeChar]
  rfl

theorem length_le_length_encode (text : List Char) : text.length ≤ (encode text).length := by
  induction text with
  | nil => exact Nat.le_refl 0
  | cons c text ih =>
    have hc := c.utf8Size_pos
    rw [length_encode_cons, List.length_cons]
    omega

/-- The number of bytes in front of the character with index `i`. -/
def width (text : List Char) (i : Nat) : Nat :=
  (encode (text.take i)).length

@[simp] theorem width_zero (text : List Char) : width text 0 = 0 := rfl

theorem width_cons_succ (c : Char) (text : List Char) (i : Nat) :
    width (c :: text) (i + 1) = c.utf8Size + width text i := by
  rw [width, List.take_succ_cons, length_encode_cons]
  rfl

theorem width_succ {text : List Char} {i : Nat} {c : Char} (h : text[i]? = some c) :
    width text (i + 1) = width text i + c.utf8Size := by
  have hone : (encode [c]).length = c.utf8Size := length_encode_cons c []
  rw [width, List.take_add_one, h, encode_append, List.length_append]
  show _ + (encode [c]).length = _
  rw [hone]
  rfl

theorem take_width (text : List Char) (i : Nat) :
    (encode text).take (width text i) = encode (text.take i) := by
  rw [← encode_take_append_drop text i, width, List.take_left]

theorem drop_width (text : List Char) (i : Nat) :
    (encode text).drop (width text i) = encode (text.drop i) := by
  rw [← encode_take_append_drop text i, width, List.drop_left]

theorem width_le (text : List Char) (i : Nat) : width text i ≤ (encode text).length := by
  have hlength := congrArg List.length (take_width text i)
  rw [List.length_take, ← width] at hlength
  omega

theorem width_length (text : List Char) : width text text.length = (encode text).length := by
  rw [width, List.take_length]

theorem width_mono (text : List Char) {i j : Nat} (h : i ≤ j) : width text i ≤ width text j := by
  have hsplit : text.take j = text.take i ++ (text.take j).drop i := by
    have htake := List.take_append_drop i (text.take j)
    rwa [List.take_take, Nat.min_eq_left h, eq_comm] at htake
  rw [width, width, hsplit, encode_append, List.length_append]
  omega

theorem width_take (text : List Char) {i j : Nat} (h : i ≤ j) :
    width (text.take j) i = width text i := by
  rw [width, List.take_take, Nat.min_eq_left h, width]

/-- Where all characters take one byte, so many bytes stand in front of a character as
    characters do. -/
theorem width_eq_self {text : List Char} (h : (encode text).length = text.length) {i : Nat}
    (hi : i ≤ text.length) : width text i = i := by
  have hfront := length_le_length_encode (text.take i)
  have hback := length_le_length_encode (text.drop i)
  have htotal : width text i + (encode (text.drop i)).length = text.length := by
    rw [← h, ← encode_take_append_drop text i, List.length_append, width]
  rw [List.length_take, Nat.min_eq_left hi] at hfront
  rw [List.length_drop] at hback
  rw [width] at htotal ⊢
  omega

theorem bound_width (text : List Char) (i : Nat) :
    bound (encode text).length (width text i) = width text i := by
  rw [bound_natCast, Nat.min_eq_left (width_le text i)]

/-- Between two boundaries the bytes are those of the characters between them. -/
theorem extract_width (text : List Char) (i j : Nat) :
    ((encode text).take (width text j)).drop (width text i) =
      encode ((text.take j).drop i) := by
  rw [take_width]
  by_cases h : i ≤ j
  · rw [← width_take text h, drop_width]
  · -- The bounds cross, so there is nothing between them.
    have hwidth := width_mono text (Nat.le_of_not_le h)
    have hempty : (text.take j).drop i = [] := by
      rw [List.drop_eq_nil_iff, List.length_take]
      omega
    rw [hempty, List.drop_eq_nil_iff.mpr hwidth]
    rfl

/-! ## The character of a byte -/

/-- `Covers text i p`: the byte at position `p` belongs to the character with index `i`.  The
    end of the text counts as the character behind the last one. -/
structure Covers (text : List Char) (i p : Nat) : Prop where
  le_length : i ≤ text.length
  starts : width text i ≤ p
  stops : p < width text (i + 1) ∨ i = text.length ∧ p = width text text.length

theorem covers_width {text : List Char} {i : Nat} (h : i ≤ text.length) :
    Covers text i (width text i) := by
  refine ⟨h, Nat.le_refl _, ?_⟩
  rcases Nat.lt_or_eq_of_le h with hlt | rfl
  · have hpos := (text[i]).utf8Size_pos
    have hnext := width_succ (List.getElem?_eq_getElem hlt)
    exact Or.inl (by omega)
  · exact Or.inr ⟨rfl, rfl⟩

namespace Covers

variable {c : Char} {text : List Char} {i p : Nat}

/-- Behind the last character there is only the end. -/
theorem eq_of_end (h : Covers text i p) (hi : i = text.length) : p = width text text.length := by
  have hstarts := h.starts
  have hend := width_le text (i + 1)
  rw [← width_length] at hend
  rw [hi] at hstarts
  rcases h.stops with hlt | ⟨-, heq⟩
  · omega
  · exact heq

theorem lt_of_zero (h : Covers (c :: text) 0 p) : p < c.utf8Size := by
  rcases h.stops with hlt | ⟨hend, -⟩
  · rwa [width_cons_succ, width_zero] at hlt
  · cases hend

/-- A byte behind the first character belongs to a character of the rest. -/
theorem tail (h : Covers (c :: text) (i + 1) p) :
    c.utf8Size ≤ p ∧ Covers text i (p - c.utf8Size) := by
  have hstarts := h.starts
  have hstops := h.stops
  rw [width_cons_succ] at hstarts
  rw [width_cons_succ, List.length_cons, width_cons_succ] at hstops
  refine ⟨by omega, Nat.le_of_succ_le_succ h.le_length, by omega, ?_⟩
  rcases hstops with hlt | ⟨hend, heq⟩
  · exact Or.inl (by omega)
  · exact Or.inr ⟨by omega, by omega⟩

/-- Where all characters take one byte, the byte and its character have the same place. -/
theorem eq_of_length_encode (h : Covers text i p) (hbytes : (encode text).length = text.length) :
    p = i := by
  rcases Nat.lt_or_eq_of_le h.le_length with hlt | heq
  · have hstarts := h.starts
    rw [width_eq_self hbytes h.le_length] at hstarts
    rcases h.stops with hnext | ⟨hend, -⟩
    · rw [width_eq_self hbytes hlt] at hnext
      omega
    · omega
  · rw [h.eq_of_end heq, width_eq_self hbytes (Nat.le_refl _), heq]

end Covers

end Utf8

/-! ## The byte map at boundaries -/

/-- The entry of a byte in the table is the index of the character to which it belongs. -/
theorem getElem?_charTable {text : List Char} {i p : Nat} (h : Utf8.Covers text i p) :
    (charTable text)[p]? = some i := by
  -- The characters are counted from any index on.
  suffices hfrom : ∀ (text : List Char) (first i p : Nat), Utf8.Covers text i p →
      (((text.zipIdx first).flatMap fun entry => List.replicate entry.1.utf8Size entry.2) ++
        [first + text.length])[p]? = some (first + i) by
    have hzero := hfrom text 0 i p h
    rwa [Nat.zero_add, Nat.zero_add] at hzero
  intro text
  induction text with
  | nil =>
    intro first i p h
    obtain rfl : i = 0 := Nat.le_zero.mp h.le_length
    obtain rfl : p = 0 := h.eq_of_end rfl
    rfl
  | cons c text ih =>
    intro first i p h
    rw [List.zipIdx_cons, List.flatMap_cons, List.append_assoc]
    cases i with
    | zero =>
      have hp : p < c.utf8Size := h.lt_of_zero
      rw [List.getElem?_append_left (by rw [List.length_replicate]; exact hp),
        List.getElem?_replicate, if_pos hp]
      rfl
    | succ i =>
      obtain ⟨hle, hbehind⟩ := h.tail
      have hrest := ih (first + 1) i (p - c.utf8Size) hbehind
      have hlast : first + (text.length + 1) = first + 1 + text.length := by omega
      have hindex : first + (i + 1) = first + 1 + i := by omega
      rw [List.getElem?_append_right (by rw [List.length_replicate]; exact hle),
        List.length_replicate, List.length_cons, hlast, hindex]
      exact hrest

end EsFeatures.Text

namespace EsFeatures.Ast

open Text (ByteMap)
open Text.Utf8 (width)

/-- A byte stands for the index of the character to which it belongs. -/
theorem charOffset_of_covers {source : String} {i p : Nat}
    (h : Text.Utf8.Covers source.toList i p) : charOffset source p = i := by
  simp only [charOffset, ByteMap.toChar, ByteMap.ofSource]
  by_cases hbytes : (Text.Utf8.encode source.toList).length = source.toList.length
  · -- Without a table positions and indices are the same.
    rw [if_pos hbytes]
    show (p : Int) = i
    rw [h.eq_of_length_encode hbytes]
  · rw [if_neg hbytes]
    simp only [Int.natCast_nonneg, if_true, Int.toNat_natCast, List.getElem?_toArray,
      Text.getElem?_charTable h]

/-- The bytes in front of a character stand for its index. -/
theorem charOffset_width (source : String) {i : Nat} (h : i ≤ source.length) :
    charOffset source (width source.toList i) = i := by
  rw [← String.length_toList] at h
  exact charOffset_of_covers (Text.Utf8.covers_width h)

/-- Between two boundaries the bytes read as the characters between them. -/
theorem text_width (source : String) {i j : Nat} (hi : i ≤ source.length) (hj : j ≤ source.length) :
    (ByteMap.ofSource source).text (width source.toList i) (width source.toList j) =
      Text.substring source i j := by
  rw [← String.length_toList] at hi hj
  have hsubstring : Text.substring source i j =
      String.ofList ((source.toList.take j).drop i) := by
    rw [Text.substring, Text.slice, Text.bound_natCast, Text.bound_natCast, Nat.min_eq_left hi,
      Nat.min_eq_left hj]
  rw [hsubstring]
  simp only [ByteMap.text, ByteMap.ofSource, List.size_toArray, Text.Utf8.bound_width,
    Array.toList_extract, List.extract_eq_drop_take', Text.Utf8.extract_width,
    Text.Utf8.decode_encode]

end EsFeatures.Ast
