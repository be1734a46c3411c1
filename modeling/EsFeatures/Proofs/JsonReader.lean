/-
  EsFeatures.Proofs.JsonReader

  A reader of JSON documents, and what it makes of a printed value.  The reader knows the
  grammar of the format and nothing of how values are printed: blanks may stand between any
  two parts, a text may hold every escape, and surrogates are paired.  Printing a value, at
  any level of the layout, and reading it again gives the value back, whatever follows it.
-/
import EsFeatures.Report.Json
import Mathlib.Data.Nat.Digits.Lemmas

namespace EsFeatures.Json

/-! ## The reader -/

/-- The blanks that may stand between two parts of a document. -/
def isBlank (c : Char) : Bool :=
  c = ' ' || c = '\t' || c = '\n' || c = '\r'

/-- A text without the blanks in front of it. -/
def skipBlanks (text : List Char) : List Char :=
  text.dropWhile isBlank

/-- The value of a hexadecimal digit. -/
def hexValue? (c : Char) : Option Nat :=
  if c.isDigit then some (c.toNat - '0'.toNat)
  else if 'a' ≤ c ∧ c ≤ 'f' then some (c.toNat - 'a'.toNat + 10)
  else if 'A' ≤ c ∧ c ≤ 'F' then some (c.toNat - 'A'.toNat + 10)
  else none

/-- The code that four hexadecimal digits spell. -/
def hexCode? (a b c d : Char) : Option Nat := do
  let a ← hexValue? a
  let b ← hexValue? b
  let c ← hexValue? c
  let d ← hexValue? d
  return ((a * 16 + b) * 16 + c) * 16 + d

/-- The character for which a single character behind a backslash stands. -/
def shortEscape? (c : Char) : Option Char :=
  if c = '"' ∨ c = '\\' ∨ c = '/' then some c
  else if c = 'b' then some '\x08'
  else if c = 'f' then some '\x0c'
  else if c = 'n' then some '\n'
  else if c = 'r' then some '\r'
  else if c = 't' then some '\t'
  else none

/-- Reads the codes of a text up to the quote that ends it: code points of characters, and
    whatever escapes spell. -/
def readCodes : List Char → Option (List Nat × List Char)
  | [] => none
  | '\\' :: 'u' :: a :: b :: c :: d :: rest => do
    let code ← hexCode? a b c d
    let (codes, rest) ← readCodes rest
    return (code :: codes, rest)
  | '\\' :: c :: rest => do
    let escaped ← shortEscape? c
    let (codes, rest) ← readCodes rest
    return (escaped.toNat :: codes, rest)
  | c :: rest =>
    if c = '"' then some ([], rest)
    else if c = '\\' ∨ c.toNat < 0x20 then none
    else do
      let (codes, rest) ← readCodes rest
      return (c.toNat :: codes, rest)

/-- The character with a code point; a surrogate is none. -/
def charOfCode? (code : Nat) : Option Char :=
  if code.isValidChar then some (Char.ofNat code) else none

/-- The text with the given codes.  A surrogate has to have its other half behind it. -/
def textOfCodes? : List Nat → Option (List Char)
  | [] => some []
  | [code] => do
    let c ← charOfCode? code
    return [c]
  | high :: low :: codes =>
    if (0xd800 ≤ high ∧ high < 0xdc00) ∧ (0xdc00 ≤ low ∧ low < 0xe000) then do
      let text ← textOfCodes? codes
      return Char.ofNat (0x10000 + (high - 0xd800) * 0x400 + (low - 0xdc00)) :: text
    else do
      let c ← charOfCode? high
      let text ← textOfCodes? (low :: codes)
      return c :: text

/-- Reads a text behind the quote that begins it. -/
def readText (text : List Char) : Option (String × List Char) := do
  let (codes, rest) ← readCodes text
  let chars ← textOfCodes? codes
  return (String.ofList chars, rest)

/-- Whether a character goes on with a number. -/
def isNumberPart (c : Char) : Bool :=
  c.isDigit || c = '.' || c = 'e' || c = 'E'

/-- Reads the digits of an integer, without a zero in front of others.  There are no values
    for numbers with a fraction or an exponent, so these are not read. -/
def readDigits (text : List Char) : Option (Nat × List Char) :=
  let digits := text.takeWhile Char.isDigit
  let rest := text.dropWhile Char.isDigit
  if digits = [] ∨ (digits.head? = some '0' ∧ digits ≠ ['0']) ∨ rest.head?.any isNumberPart then
    none
  else some (Nat.ofDigitChars 10 digits 0, rest)

/-- Reads an integer. -/
def readInteger : List Char → Option (Int × List Char)
  | '-' :: text => do
    let (value, rest) ← readDigits text
    return (-(value : Int), rest)
  | text => do
    let (value, rest) ← readDigits text
    return (value, rest)

/-- Reads a plain value. -/
def readScalar : List Char → Option (Scalar × List Char)
  | '"' :: text => do
    let (value, rest) ← readText text
    return (.text value, rest)
  | 'n' :: 'u' :: 'l' :: 'l' :: rest => some (.null, rest)
  | 't' :: 'r' :: 'u' :: 'e' :: rest => some (.flag true, rest)
  | 'f' :: 'a' :: 'l' :: 's' :: 'e' :: rest => some (.flag false, rest)
  | text => do
    let (value, rest) ← readInteger text
    return (.integer value, rest)

mutual

/-- Reads a value, with the blanks in front of it.  The first argument bounds the number of
    characters that are read. -/
def readValue : Nat → List Char → Option (Json × List Char)
  | 0, _ => none
  | bound + 1, text =>
    match skipBlanks text with
    | '[' :: text =>
      match skipBlanks text with
      | ']' :: rest => some (.list [], rest)
      | _ => do
        let (items, rest) ← readItems bound text
        return (.list items, rest)
    | '\x7b' :: text =>
      match skipBlanks text with
      | '\x7d' :: rest => some (.object [], rest)
      | _ => do
        let (members, rest) ← readMembers bound text
        return (.object members, rest)
    | text => do
      let (value, rest) ← readScalar text
      return (.scalar value, rest)

/-- Reads the items of a list, up to the bracket behind them. -/
def readItems : Nat → List Char → Option (List Json × List Char)
  | 0, _ => none
  | bound + 1, text => do
    let (item, rest) ← readValue bound text
    match skipBlanks rest with
    | ',' :: text => do
      let (items, rest) ← readItems bound text
      return (item :: items, rest)
    | ']' :: rest => return ([item], rest)
    | _ => none

/-- Reads the members of an object, up to the brace behind them. -/
def readMembers : Nat → List Char → Option (List (String × Json) × List Char)
  | 0, _ => none
  | bound + 1, text =>
    match skipBlanks text with
    | '"' :: text => do
      let (name, rest) ← readText text
      match skipBlanks rest with
      | ':' :: text => do
        let (value, rest) ← readValue bound text
        match skipBlanks rest with
        | ',' :: text => do
          let (members, rest) ← readMembers bound text
          return ((name, value) :: members, rest)
        | '\x7d' :: rest => return ([(name, value)], rest)
        | _ => none
      | _ => none
    | _ => none

end

/-- The value that a document holds; blanks may stand around it and nothing else. -/
def decode? (document : String) : Option Json := do
  let (value, rest) ← readValue (document.toList.length + 1) document.toList
  if skipBlanks rest = [] then return value else none

/-! ## Texts -/

section Texts

variable (rest : List Char)

theorem hexValue?_digitChar {d : Nat} (h : d < 16) : hexValue? (Nat.digitChar d) = some d := by
  revert d
  decide

theorem hexCode?_hexDigits {code : Nat} (h : code < 0x10000) :
    ∃ a b c d, Text.hexDigits 4 code = [a, b, c, d] ∧ hexCode? a b c d = some code := by
  refine ⟨_, _, _, _, rfl, ?_⟩
  have hcode : ((code / 16 / 16 / 16 % 16 * 16 + code / 16 / 16 % 16) * 16 + code / 16 % 16) * 16 +
      code % 16 = code := by omega
  simp only [hexCode?, hexValue?_digitChar (Nat.mod_lt _ (by decide : 0 < 16)), Option.bind_eq_bind,
    Option.bind_some, hcode]
  rfl

theorem readCodes_shortEscape {c escaped : Char} (h : shortEscape? c = some escaped) :
    readCodes ('\\' :: c :: rest) =
      (readCodes rest).map fun read => (escaped.toNat :: read.1, read.2) := by
  have hu : c ≠ 'u' := by
    rintro rfl
    simp [shortEscape?] at h
  rw [readCodes]
  · rw [h, Option.bind_eq_bind, Option.bind_some, Option.map_eq_bind]
    rfl
  · intro a b c d rest' hc
    exact absurd hc hu

theorem readCodes_hexEscape {code : Nat} (h : code < 0x10000) :
    readCodes ('\\' :: 'u' :: (Text.hexDigits 4 code ++ rest)) =
      (readCodes rest).map fun read => (code :: read.1, read.2) := by
  obtain ⟨a, b, c, d, hdigits, hcode⟩ := hexCode?_hexDigits h
  simp only [hdigits, List.cons_append, List.nil_append]
  rw [readCodes, hcode, Option.bind_eq_bind, Option.bind_some, Option.map_eq_bind]
  rfl

theorem readCodes_char {c : Char} (hquote : c ≠ '"') (hslash : c ≠ '\\') (h : ¬c.toNat < 0x20) :
    readCodes (c :: rest) = (readCodes rest).map fun read => (c.toNat :: read.1, read.2) := by
  rw [readCodes]
  · rw [if_neg hquote, if_neg (not_or.mpr ⟨hslash, h⟩), Option.map_eq_bind]
    rfl
  · intro a b c d rest' hc
    exact absurd hc hslash
  · intro c rest' hc
    exact absurd hc hslash

/-- An escaped character is read as its code. -/
theorem readCodes_escapedChar (c : Char) :
    readCodes (escapedChar c ++ rest) =
      (readCodes rest).map fun read => (c.toNat :: read.1, read.2) := by
  rw [escapedChar]
  split
  · subst c
    exact readCodes_shortEscape rest rfl
  split
  · subst c
    exact readCodes_shortEscape rest rfl
  split
  · subst c
    exact readCodes_shortEscape rest rfl
  split
  · subst c
    exact readCodes_shortEscape rest rfl
  split
  · subst c
    exact readCodes_shortEscape rest rfl
  split
  · rw [‹c.toNat = 0x08›]
    exact readCodes_shortEscape rest (rfl : shortEscape? 'b' = some '\x08')
  split
  · rw [‹c.toNat = 0x0c›]
    exact readCodes_shortEscape rest (rfl : shortEscape? 'f' = some '\x0c')
  split
  · exact readCodes_hexEscape rest (by omega)
  · exact readCodes_char rest ‹_› ‹_› ‹_›

theorem readCodes_flatMap (text : List Char) :
    readCodes (text.flatMap escapedChar ++ '"' :: rest) = some (text.map Char.toNat, rest) := by
  induction text with
  | nil =>
    show readCodes ('"' :: rest) = some ([], rest)
    rw [readCodes]
    · rfl
    · simp
    · simp
  | cons c text ih =>
    rw [List.flatMap_cons, List.append_assoc, readCodes_escapedChar, ih]
    rfl

theorem charOfCode?_toNat (c : Char) : charOfCode? c.toNat = some c := by
  have hvalid : c.toNat.isValidChar := c.valid
  rw [charOfCode?, if_pos hvalid, Char.ofNat_toNat]

/-- Codes of characters are read one by one: none of them is a surrogate. -/
theorem textOfCodes?_map (text : List Char) : textOfCodes? (text.map Char.toNat) = some text := by
  induction text with
  | nil => rfl
  | cons c text ih =>
    cases text with
    | nil =>
      show (charOfCode? c.toNat >>= fun c => pure [c]) = some [c]
      rw [charOfCode?_toNat]
      rfl
    | cons d text =>
      have hvalid : c.toNat < 0xd800 ∨ 0xdfff < c.toNat ∧ c.toNat < 0x110000 := c.valid
      have hpair : ¬((0xd800 ≤ c.toNat ∧ c.toNat < 0xdc00) ∧
          (0xdc00 ≤ d.toNat ∧ d.toNat < 0xe000)) := by omega
      rw [List.map_cons, List.map_cons] at *
      rw [textOfCodes?, if_neg hpair, charOfCode?_toNat, ih]
      rfl

/-- A text between quotes is read back. -/
theorem readText_quotedText (text : String) :
    ∃ tail, (quotedText text).toList = '"' :: tail ∧ readText (tail ++ rest) = some (text, rest) := by
  refine ⟨text.toList.flatMap escapedChar ++ ['"'], by rw [quotedText, String.toList_ofList]; rfl, ?_⟩
  rw [List.append_assoc, readText]
  show (readCodes (text.toList.flatMap escapedChar ++ '"' :: rest) >>= _) = _
  rw [readCodes_flatMap]
  show (textOfCodes? (text.toList.map Char.toNat) >>= _) = _
  rw [textOfCodes?_map]
  show some (String.ofList text.toList, rest) = _
  rw [String.ofList_toList]

end Texts

/-! ## Plain values -/

/-- `Ended rest`: no number goes on with `rest`. -/
def Ended (rest : List Char) : Prop :=
  rest.head?.any isNumberPart = false

section Scalars

variable {rest : List Char}

theorem ended_cons {c : Char} (h : isNumberPart c = false) : Ended (c :: rest) := h

theorem Ended.takeWhile_eq_nil (h : Ended rest) : rest.takeWhile Char.isDigit = [] := by
  cases rest with
  | nil => rfl
  | cons c rest =>
    have hc : c.isDigit = false := by
      have hpart : isNumberPart c = false := h
      simp only [isNumberPart, Bool.or_eq_false_iff] at hpart
      exact hpart.1.1.1
    rw [List.takeWhile_cons, hc]
    rfl

theorem eq_zero_of_digitChar {n : Nat} (hn : n < 10) (h : n.digitChar = '0') : n = 0 := by
  revert n
  decide

/-- Only the number zero has a zero as its first digit. -/
theorem eq_zero_of_head?_toDigits {n : Nat} (h : (Nat.toDigits 10 n).head? = some '0') : n = 0 := by
  induction n using Nat.strongRecOn with
  | _ n ih =>
    rw [Nat.toDigits_eq_if (by decide)] at h
    split at h
    · next hn => exact eq_zero_of_digitChar hn (Option.some.inj h)
    · next hn =>
      rw [List.head?_append_of_ne_nil _ Nat.toDigits_ne_nil] at h
      have hzero := ih (n / 10) (by omega) h
      omega

theorem readDigits_toDigits (n : Nat) (h : Ended rest) :
    readDigits (Nat.toDigits 10 n ++ rest) = some (n, rest) := by
  have hdigit : ∀ c ∈ Nat.toDigits 10 n, c.isDigit = true := fun c hc =>
    Nat.isDigit_of_mem_toDigits (by decide) (by decide) hc
  have htake : (Nat.toDigits 10 n ++ rest).takeWhile Char.isDigit = Nat.toDigits 10 n := by
    rw [List.takeWhile_append_of_pos hdigit, h.takeWhile_eq_nil, List.append_nil]
  have hdrop : (Nat.toDigits 10 n ++ rest).dropWhile Char.isDigit = rest := by
    have hsplit := List.takeWhile_append_dropWhile (p := Char.isDigit)
      (l := Nat.toDigits 10 n ++ rest)
    rw [htake] at hsplit
    exact List.append_cancel_left hsplit
  have hzero : ¬((Nat.toDigits 10 n).head? = some '0' ∧ Nat.toDigits 10 n ≠ ['0']) := by
    rintro ⟨hhead, hmore⟩
    rw [eq_zero_of_head?_toDigits hhead] at hmore
    exact hmore rfl
  have hend : ¬rest.head?.any isNumberPart = true := by
    rw [h]
    decide
  rw [readDigits]
  simp only [htake, hdrop]
  rw [if_neg (not_or.mpr ⟨Nat.toDigits_ne_nil, not_or.mpr ⟨hzero, hend⟩⟩),
    Nat.ofDigitChars_toDigits (by decide) (by decide)]

theorem toList_toString_int (value : Int) :
    (toString value).toList =
      if 0 ≤ value then Nat.toDigits 10 value.toNat
      else '-' :: Nat.toDigits 10 (-value).toNat := by
  show value.repr.toList = _
  rw [Int.repr_eq_if]
  split
  · exact Nat.toList_repr
  · rw [String.toList_append, Nat.toList_repr]
    rfl

theorem exists_toDigits_eq_cons (n : Nat) :
    ∃ c tail, Nat.toDigits 10 n = c :: tail ∧ c.isDigit = true := by
  obtain ⟨c, tail, hdigits⟩ := List.exists_cons_of_ne_nil (Nat.toDigits_ne_nil (n := n) (b := 10))
  have hmem : c ∈ Nat.toDigits 10 n := hdigits ▸ List.mem_cons_self
  exact ⟨c, tail, hdigits, Nat.isDigit_of_mem_toDigits (by decide) (by decide) hmem⟩

theorem readInteger_toString (value : Int) (h : Ended rest) :
    readInteger ((toString value).toList ++ rest) = some (value, rest) := by
  rw [toList_toString_int]
  split
  · next hpos =>
    have hvalue : ((value.toNat : Nat) : Int) = value := Int.toNat_of_nonneg hpos
    rw [readInteger, readDigits_toDigits _ h]
    · show some (((value.toNat : Nat) : Int), rest) = _
      rw [hvalue]
    · intro text htext
      obtain ⟨c, tail, hdigits, hdigit⟩ := exists_toDigits_eq_cons value.toNat
      rw [hdigits] at htext
      obtain rfl : c = '-' := (List.cons.inj htext).1
      exact absurd hdigit (by decide)
  · next hneg =>
    have hvalue : -((-value).toNat : Int) = value := by omega
    rw [List.cons_append, readInteger, readDigits_toDigits _ h]
    show some (-((-value).toNat : Int), rest) = _
    rw [hvalue]

/-- A printed integer begins with a sign or a digit. -/
theorem exists_toString_eq_cons (value : Int) :
    ∃ c tail, (toString value).toList = c :: tail ∧ (c = '-' ∨ c.isDigit = true) := by
  rw [toList_toString_int]
  split
  · obtain ⟨c, tail, hdigits, hdigit⟩ := exists_toDigits_eq_cons value.toNat
    exact ⟨c, tail, hdigits, Or.inr hdigit⟩
  · exact ⟨'-', _, rfl, Or.inl rfl⟩

/-- A printed integer begins with no character but these. -/
theorem ne_of_sign_or_digit {c d : Char} (hc : c = '-' ∨ c.isDigit = true)
    (hd : ¬(d = '-' ∨ d.isDigit = true)) : c ≠ d := by
  rintro rfl
  exact hd hc

/-- A printed plain value begins as no list, no object and no blank does. -/
theorem exists_ofScalar_eq_cons (value : Scalar) :
    ∃ c tail, (ofScalar value).toList = c :: tail ∧ c ≠ '[' ∧ c ≠ ']' ∧ c ≠ '\x7b' ∧
      isBlank c = false := by
  cases value with
  | null => exact ⟨'n', ['u', 'l', 'l'], rfl, by decide⟩
  | flag value =>
    cases value with
    | false => exact ⟨'f', ['a', 'l', 's', 'e'], rfl, by decide⟩
    | true => exact ⟨'t', ['r', 'u', 'e'], rfl, by decide⟩
  | integer value =>
    obtain ⟨c, tail, htext, hc⟩ := exists_toString_eq_cons value
    refine ⟨c, tail, htext, ne_of_sign_or_digit hc (by decide), ne_of_sign_or_digit hc (by decide),
      ne_of_sign_or_digit hc (by decide), ?_⟩
    rw [Bool.eq_false_iff]
    intro hblank
    simp only [isBlank, Bool.or_eq_true, decide_eq_true_eq] at hblank
    obtain ((hblank | hblank) | hblank) | hblank := hblank
    all_goals exact ne_of_sign_or_digit hc (by decide) hblank
  | text value =>
    obtain ⟨tail, htext, -⟩ := readText_quotedText [] value
    exact ⟨'"', tail, htext, by decide⟩

/-- A printed plain value is read back. -/
theorem readScalar_ofScalar (value : Scalar) (h : Ended rest) :
    readScalar ((ofScalar value).toList ++ rest) = some (value, rest) := by
  cases value with
  | null => rfl
  | flag value => cases value <;> rfl
  | integer value =>
    show readScalar ((toString value).toList ++ rest) = _
    obtain ⟨c, tail, htext, hc⟩ := exists_toString_eq_cons value
    have hread := readInteger_toString value h
    rw [htext, List.cons_append] at hread ⊢
    rw [readScalar, hread]
    · rfl
    -- None of the words and no text begins as an integer does.
    all_goals
      intro text hword
      exact ne_of_sign_or_digit hc (by decide) (List.cons.inj hword).1
  | text value =>
    obtain ⟨tail, htext, hread⟩ := readText_quotedText rest value
    show readScalar ((quotedText value).toList ++ rest) = _
    rw [htext, List.cons_append, readScalar, hread]
    rfl

end Scalars

/-! ## Lists and objects -/

theorem skipBlanks_of_not_isBlank {c : Char} {text : List Char} (h : isBlank c = false) :
    skipBlanks (c :: text) = c :: text := by
  rw [skipBlanks, List.dropWhile_cons, h]
  rfl

theorem skipBlanks_newLine (level : Nat) (text : List Char) :
    skipBlanks ((newLine level).toList ++ text) = skipBlanks text := by
  have hblank : ∀ c ∈ (newLine level).toList, isBlank c = true := by
    intro c hc
    simp only [newLine, String.toList_append, String.toList_ofList, List.mem_append,
      List.mem_replicate] at hc
    obtain hc | ⟨-, rfl⟩ := hc
    · obtain rfl : c = '\n' := List.mem_singleton.mp hc
      rfl
    · rfl
  exact List.dropWhile_append_of_pos hblank

/-- Blanks in front of a value make no difference. -/
theorem readValue_congr {text text' : List Char} (h : skipBlanks text = skipBlanks text') (bound : Nat) :
    readValue bound text = readValue bound text' := by
  cases bound with
  | zero => rw [readValue, readValue]
  | succ bound => rw [readValue, readValue, h]

theorem length_newLine_pos (level : Nat) : 0 < (newLine level).toList.length := by
  rw [newLine, String.toList_append, List.length_append]
  exact Nat.lt_add_right _ (by decide)

theorem ended_newLine (level : Nat) (text : List Char) :
    Ended ((newLine level).toList ++ text) := by
  rw [newLine, String.toList_append]
  rfl

/-- `Reads value`: wherever a value is printed, it is read back, and what follows it is
    left. -/
def Reads (value : Json) : Prop :=
  ∀ (level bound : Nat) (rest : List Char), (render level value).toList.length < bound →
    Ended rest → readValue bound ((render level value).toList ++ rest) = some (value, rest)

theorem reads_scalar (value : Scalar) : Reads (.scalar value) := by
  intro level bound rest hbound hended
  obtain ⟨c, tail, htext, hlist, -, hobject, hblank⟩ := exists_ofScalar_eq_cons value
  have hread := readScalar_ofScalar value hended
  obtain ⟨bound, rfl⟩ := Nat.exists_eq_succ_of_ne_zero (Nat.ne_zero_of_lt hbound)
  rw [render, htext, List.cons_append] at *
  rw [readValue, skipBlanks_of_not_isBlank hblank]
  split
  · exact absurd (List.cons.inj ‹_›).1 hlist
  · exact absurd (List.cons.inj ‹_›).1 hobject
  · rw [hread]
    rfl

section Containers

variable (level low : Nat) (rest : List Char)

/-- The text behind the first item of a list: the further items, then the end of the list. -/
def itemsEnd (items : List Json) : List Char :=
  (renderItems level items).toList ++ ((newLine low).toList ++ ']' :: rest)

/-- The text behind the first member of an object. -/
def membersEnd (members : List (String × Json)) : List Char :=
  (renderMembers level members).toList ++ ((newLine low).toList ++ '\x7d' :: rest)

theorem itemsEnd_nil : itemsEnd level low rest [] = (newLine low).toList ++ ']' :: rest := by
  rw [itemsEnd, renderItems]
  rfl

theorem itemsEnd_cons (item : Json) (items : List Json) :
    itemsEnd level low rest (item :: items) =
      ',' :: ((newLine level).toList ++ ((render level item).toList ++
        itemsEnd level low rest items)) := by
  rw [itemsEnd, renderItems, itemsEnd]
  simp only [String.toList_append, List.append_assoc]
  rfl

theorem membersEnd_nil : membersEnd level low rest [] = (newLine low).toList ++ '\x7d' :: rest := by
  rw [membersEnd, renderMembers]
  rfl

theorem membersEnd_cons (name : String) (value : Json) (members : List (String × Json)) :
    membersEnd level low rest ((name, value) :: members) =
      ',' :: ((newLine level).toList ++ ((quotedText name).toList ++ (':' :: ' ' ::
        ((render level value).toList ++ membersEnd level low rest members)))) := by
  rw [membersEnd, renderMembers, membersEnd]
  simp only [String.toList_append, List.append_assoc]
  rfl

theorem render_list_append (item : Json) (items : List Json) :
    (render level (.list (item :: items))).toList ++ rest =
      '[' :: ((newLine (level + 1)).toList ++ ((render (level + 1) item).toList ++
        itemsEnd (level + 1) level rest items)) := by
  rw [render, itemsEnd]
  simp only [String.toList_append, List.append_assoc]
  rfl

theorem render_object_append (name : String) (value : Json) (members : List (String × Json)) :
    (render level (.object ((name, value) :: members))).toList ++ rest =
      '\x7b' :: ((newLine (level + 1)).toList ++ ((quotedText name).toList ++ (':' :: ' ' ::
        ((render (level + 1) value).toList ++ membersEnd (level + 1) level rest members)))) := by
  rw [render, membersEnd]
  simp only [String.toList_append, List.append_assoc]
  rfl

theorem ended_itemsEnd (items : List Json) : Ended (itemsEnd level low rest items) := by
  cases items with
  | nil =>
    rw [itemsEnd_nil]
    exact ended_newLine low _
  | cons item items =>
    rw [itemsEnd_cons]
    exact ended_cons rfl

theorem ended_membersEnd (members : List (String × Json)) :
    Ended (membersEnd level low rest members) := by
  cases members with
  | nil =>
    rw [membersEnd_nil]
    exact ended_newLine low _
  | cons member members =>
    rw [membersEnd_cons]
    exact ended_cons rfl

/-- The items of a printed list are read up to the end of the list. -/
theorem readItems_render {item : Json} {items : List Json} (hitem : Reads item)
    (hitems : ∀ item ∈ items, Reads item) (bound : Nat)
    (hbound : ((render level item).toList ++ itemsEnd level low [] items).length < bound) :
    readItems bound ((newLine level).toList ++
      ((render level item).toList ++ itemsEnd level low rest items)) =
        some (item :: items, rest) := by
  -- A step takes one from the bound, and the comma or the line end behind the item makes up
  -- for it.
  induction items generalizing item bound with
  | nil =>
    obtain ⟨bound, rfl⟩ := Nat.exists_eq_succ_of_ne_zero (Nat.ne_zero_of_lt hbound)
    rw [itemsEnd_nil] at hbound ⊢
    rw [List.length_append, List.length_append] at hbound
    have hpos := length_newLine_pos low
    have hread := hitem level bound _ (by omega) (ended_newLine low (']' :: rest))
    rw [readItems, readValue_congr (skipBlanks_newLine level _), hread]
    simp only [Option.bind_eq_bind, Option.bind_some, skipBlanks_newLine,
      skipBlanks_of_not_isBlank (rfl : isBlank ']' = false)]
    rfl
  | cons next items ih =>
    obtain ⟨bound, rfl⟩ := Nat.exists_eq_succ_of_ne_zero (Nat.ne_zero_of_lt hbound)
    rw [List.forall_mem_cons] at hitems
    have hended := ended_itemsEnd level low rest (next :: items)
    rw [itemsEnd_cons] at hbound hended ⊢
    rw [List.length_append, List.length_cons, List.length_append] at hbound
    have hread := hitem level bound _ (by omega) hended
    have hitems := ih hitems.1 hitems.2 bound (by omega)
    rw [readItems, readValue_congr (skipBlanks_newLine level _), hread]
    simp only [Option.bind_eq_bind, Option.bind_some,
      skipBlanks_of_not_isBlank (rfl : isBlank ',' = false), hitems]
    rfl

/-- The name of a printed member is read, and its value after it. -/
theorem readMembers_succ {value : Json} {tail : List Char} (bound : Nat) (name : String)
    (hvalue : Reads value) (hended : Ended tail)
    (hbound : (render level value).toList.length < bound) :
    ∃ text, skipBlanks ((newLine level).toList ++ ((quotedText name).toList ++
        (':' :: ' ' :: ((render level value).toList ++ tail)))) = '"' :: text ∧
      readText text = some (name, ':' :: ' ' :: ((render level value).toList ++ tail)) ∧
      readValue bound (' ' :: ((render level value).toList ++ tail)) = some (value, tail) := by
  obtain ⟨text, hquoted, hname⟩ :=
    readText_quotedText (':' :: ' ' :: ((render level value).toList ++ tail)) name
  refine ⟨_, ?_, hname, ?_⟩
  · rw [skipBlanks_newLine, hquoted]
    exact skipBlanks_of_not_isBlank rfl
  · have hblank : skipBlanks (' ' :: ((render level value).toList ++ tail)) =
        skipBlanks ((render level value).toList ++ tail) := rfl
    rw [readValue_congr hblank]
    exact hvalue level bound tail hbound hended

/-- The members of a printed object are read up to the end of the object. -/
theorem readMembers_render (name : String) {value : Json} {members : List (String × Json)}
    (hvalue : Reads value) (hmembers : ∀ member ∈ members, Reads member.2) (bound : Nat)
    (hbound : ((render level value).toList ++ membersEnd level low [] members).length < bound) :
    readMembers bound ((newLine level).toList ++ ((quotedText name).toList ++ (':' :: ' ' ::
      ((render level value).toList ++ membersEnd level low rest members)))) =
        some ((name, value) :: members, rest) := by
  induction members generalizing name value bound with
  | nil =>
    obtain ⟨bound, rfl⟩ := Nat.exists_eq_succ_of_ne_zero (Nat.ne_zero_of_lt hbound)
    rw [membersEnd_nil] at hbound ⊢
    rw [List.length_append, List.length_append] at hbound
    have hpos := length_newLine_pos low
    obtain ⟨text, hblanks, hname, hread⟩ := readMembers_succ level bound name
      hvalue (ended_newLine low ('\x7d' :: rest)) (by omega)
    rw [readMembers, hblanks]
    simp only [hname, Option.bind_eq_bind, Option.bind_some,
      skipBlanks_of_not_isBlank (rfl : isBlank ':' = false), hread, skipBlanks_newLine,
      skipBlanks_of_not_isBlank (rfl : isBlank '\x7d' = false)]
    rfl
  | cons next members ih =>
    obtain ⟨bound, rfl⟩ := Nat.exists_eq_succ_of_ne_zero (Nat.ne_zero_of_lt hbound)
    rw [List.forall_mem_cons] at hmembers
    have hended := ended_membersEnd level low rest (next :: members)
    rw [membersEnd_cons] at hbound hended ⊢
    rw [List.length_append, List.length_cons, List.length_append, List.length_append] at hbound
    rw [List.length_cons, List.length_cons] at hbound
    obtain ⟨text, hblanks, hname, hread⟩ := readMembers_succ level bound name
      hvalue hended (by omega)
    have hmembers := ih next.1 hmembers.1 hmembers.2 bound (by omega)
    rw [readMembers, hblanks]
    simp only [hname, Option.bind_eq_bind, Option.bind_some,
      skipBlanks_of_not_isBlank (rfl : isBlank ':' = false), hread,
      skipBlanks_of_not_isBlank (rfl : isBlank ',' = false), hmembers]
    rfl

/-- A printed value begins neither with a blank nor with the end of a list. -/
theorem exists_render_eq_cons (level : Nat) (value : Json) :
    ∃ c tail, (render level value).toList = c :: tail ∧ c ≠ ']' ∧ isBlank c = false := by
  cases value with
  | scalar value =>
    obtain ⟨c, tail, htext, -, hc, -, hblank⟩ := exists_ofScalar_eq_cons value
    exact ⟨c, tail, by rw [render, htext], hc, hblank⟩
  | list items =>
    cases items with
    | nil => exact ⟨'[', [']'], by rw [render]; rfl, by decide⟩
    | cons item items =>
      have htext := render_list_append level [] item items
      rw [List.append_nil] at htext
      exact ⟨'[', _, htext, by decide⟩
  | object members =>
    cases members with
    | nil => exact ⟨'\x7b', ['\x7d'], by rw [render]; rfl, by decide⟩
    | cons member members =>
      have htext := render_object_append level [] member.1 member.2 members
      rw [List.append_nil] at htext
      exact ⟨'\x7b', _, htext, by decide⟩

theorem reads_list {items : List Json} (hitems : ∀ item ∈ items, Reads item) :
    Reads (.list items) := by
  intro level bound rest hbound hended
  obtain ⟨bound, rfl⟩ := Nat.exists_eq_succ_of_ne_zero (Nat.ne_zero_of_lt hbound)
  cases items with
  | nil =>
    rw [render, readValue]
    rfl
  | cons item items =>
    rw [List.forall_mem_cons] at hitems
    have hlength := congrArg List.length (render_list_append level [] item items)
    rw [List.append_nil, List.length_cons, List.length_append] at hlength
    have hread := readItems_render (level + 1) level rest hitems.1 hitems.2 bound (by omega)
    obtain ⟨c, tail, hitem, hc, hblank⟩ := exists_render_eq_cons (level + 1) item
    rw [render_list_append, readValue, skipBlanks_of_not_isBlank rfl]
    simp only [skipBlanks_newLine, hread]
    -- The first item is not taken for the end of an empty list.
    rw [hitem, List.cons_append, skipBlanks_of_not_isBlank hblank]
    split
    · exact absurd (List.cons.inj ‹_›).1 hc
    · rfl

theorem reads_object {members : List (String × Json)}
    (hmembers : ∀ member ∈ members, Reads member.2) : Reads (.object members) := by
  intro level bound rest hbound hended
  obtain ⟨bound, rfl⟩ := Nat.exists_eq_succ_of_ne_zero (Nat.ne_zero_of_lt hbound)
  cases members with
  | nil =>
    rw [render, readValue]
    rfl
  | cons member members =>
    obtain ⟨name, value⟩ := member
    rw [List.forall_mem_cons] at hmembers
    have hlength := congrArg List.length (render_object_append level [] name value members)
    rw [List.append_nil, List.length_cons, List.length_append, List.length_append,
      List.length_cons, List.length_cons] at hlength
    have hvalue : Reads value := hmembers.1
    have hread := readMembers_render (level + 1) level rest name hvalue hmembers.2 bound (by omega)
    obtain ⟨text, hquoted, -⟩ := readText_quotedText [] name
    rw [render_object_append, readValue, skipBlanks_of_not_isBlank rfl]
    simp only [skipBlanks_newLine, hread]
    rw [hquoted, List.cons_append, skipBlanks_of_not_isBlank rfl]
    rfl

end Containers

mutual

/-- Every value can be read back where it is printed. -/
theorem reads : ∀ value : Json, Reads value
  | .scalar value => reads_scalar value
  | .list items => reads_list (reads_items items)
  | .object members => reads_object (reads_members members)

theorem reads_items : ∀ items : List Json, ∀ item ∈ items, Reads item
  | [] => List.forall_mem_nil _
  | item :: items => List.forall_mem_cons.mpr ⟨reads item, reads_items items⟩

theorem reads_members : ∀ members : List (String × Json), ∀ member ∈ members, Reads member.2
  | [] => List.forall_mem_nil _
  | (_, value) :: members => List.forall_mem_cons.mpr ⟨reads value, reads_members members⟩

end

/-- The document of a value, with a line feed behind it, holds the value. -/
theorem decode?_pretty (value : Json) : decode? (value.pretty ++ "\n") = some value := by
  have htext : (value.pretty ++ "\n").toList = (render 0 value).toList ++ ['\n'] :=
    String.toList_append
  have hread := reads value 0 (((render 0 value).toList ++ ['\n']).length + 1) ['\n']
    (by rw [List.length_append]; omega) rfl
  rw [decode?, htext, hread]
  rfl

end EsFeatures.Json
