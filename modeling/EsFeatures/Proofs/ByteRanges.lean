/-
  EsFeatures.Proofs.ByteRanges

  The text of an arbitrary range of bytes.  A range that starts inside a character has the
  rest of that character in front, and each byte of it reads as U+FFFD; then come the whole
  characters of the range; and when the range stops inside a character whose first byte it
  holds, what it holds of that character reads as a single U+FFFD.  At a boundary between
  characters nothing is lost, and the texts of two ranges that meet there fit together.
-/
import EsFeatures.Proofs.DocumentOrder
import EsFeatures.Proofs.TemplateText
import Mathlib.Order.Interval.Finset.Nat

namespace EsFeatures.Text

namespace Utf8

/-! ## Parts of a character -/

/-- The character that stands for bytes that are no text. -/
def replacement : Char := Char.ofNat 0xfffd

theorem decode_nil : decode [] = [] := by
  rw [decode, pieces, piecesFrom]
  rfl

theorem decode_cons (lead : UInt8) (rest : List UInt8) :
    decode (lead :: rest) =
      (next lead rest).replaced :: decode (rest.drop ((next lead rest).width - 1)) := by
  rw [decode, pieces_cons, List.map_cons]
  rfl

theorem continues_iff {b : UInt8} : continues b = true ↔ 0x80 ≤ b.toNat ∧ b.toNat ≤ 0xbf := by
  rw [continues, within, Bool.and_eq_true, decide_eq_true_eq, decide_eq_true_eq]

/-- Whatever the lead byte is, a second byte that fits it continues a character. -/
theorem continues_of_within_second {lead b : UInt8}
    (h : within (secondLow lead) (secondHigh lead) b = true) : continues b = true := by
  rw [within, Bool.and_eq_true, decide_eq_true_eq, decide_eq_true_eq] at h
  have hlow : 0x80 ≤ secondLow lead := by
    rw [secondLow]
    split
    · decide
    · split <;> decide
  have hhigh : secondHigh lead ≤ 0xbf := by
    rw [secondHigh]
    split
    · decide
    · split <;> decide
  rw [continues_iff]
  omega

/-- `Completes lead tail`: the bytes `tail` lead from the byte `lead` to the end of a
    character. -/
inductive Completes (lead : UInt8) : List UInt8 → Prop where
  | one (h : lead.toNat < 0x80) : Completes lead []
  | two {b : UInt8} (hlow : 0xc2 ≤ lead.toNat) (hhigh : lead.toNat < 0xe0)
      (hb : continues b = true) : Completes lead [b]
  | three {b c : UInt8} (hlow : 0xe0 ≤ lead.toNat) (hhigh : lead.toNat < 0xf0)
      (hb : within (secondLow lead) (secondHigh lead) b = true) (hc : continues c = true) :
      Completes lead [b, c]
  | four {b c d : UInt8} (hlow : 0xf0 ≤ lead.toNat) (hhigh : lead.toNat < 0xf5)
      (hb : within (secondLow lead) (secondHigh lead) b = true) (hc : continues c = true)
      (hd : continues d = true) : Completes lead [b, c, d]

/-- Bytes that are read as one character complete it. -/
theorem completes_of_next {lead : UInt8} {tail : List UInt8} {c : Char}
    (h : next lead tail = .char c (tail.length + 1)) : Completes lead tail := by
  -- A character of so many bytes leaves no room for further ones.
  have hwidth {d : Char} {n : Nat} (rest : List UInt8)
      (hpiece : Piece.char d n = .char c (rest.length + n)) : rest = [] := by
    injection hpiece with _ hn
    exact List.length_eq_zero_iff.mp (by omega)
  rw [next] at h
  split at h
  · obtain rfl := hwidth tail h
    exact .one ‹_›
  split at h
  · cases h
  split at h
  · rcases tail with _ | ⟨b, rest⟩
    · cases h
    · rw [twoBytes] at h
      split at h
      · obtain rfl := hwidth rest h
        exact .two (by omega) ‹_› ‹_›
      · cases h
  split at h
  · rcases tail with _ | ⟨b, _ | ⟨c, rest⟩⟩
    · cases h
    · rw [threeBytes] at h
      split at h <;> cases h
    · rw [threeBytes] at h
      split at h
      · split at h
        · obtain rfl := hwidth rest h
          exact .three (by omega) ‹_› ‹_› ‹_›
        · cases h
      · cases h
  split at h
  · rcases tail with _ | ⟨b, _ | ⟨c, _ | ⟨d, rest⟩⟩⟩
    · cases h
    · rw [fourBytes] at h
      split at h <;> cases h
    · rw [fourBytes] at h
      split at h
      · split at h <;> cases h
      · cases h
    · rw [fourBytes] at h
      split at h
      · split at h
        · split at h
          · obtain rfl := hwidth rest h
            exact .four (by omega) ‹_› ‹_› ‹_› ‹_›
          · cases h
        · cases h
      · cases h
  · cases h

theorem Completes.continues {lead : UInt8} {tail : List UInt8} (h : Completes lead tail) :
    ∀ b ∈ tail, Utf8.continues b = true := by
  cases h with
  | one => exact List.forall_mem_nil _
  | two _ _ hb => exact List.forall_mem_singleton.mpr hb
  | three _ _ hb hc =>
    rw [List.forall_mem_cons, List.forall_mem_singleton]
    exact ⟨continues_of_within_second hb, hc⟩
  | four _ _ hb hc hd =>
    rw [List.forall_mem_cons, List.forall_mem_cons, List.forall_mem_singleton]
    exact ⟨continues_of_within_second hb, hc, hd⟩

/-- A character that lacks bytes at its end is read as one ill-formed piece. -/
theorem Completes.next_take {lead : UInt8} {tail : List UInt8} (h : Completes lead tail) {n : Nat}
    (hn : n < tail.length) : next lead (tail.take n) = .ill .truncated (n + 1) := by
  cases h with
  | one => exact absurd hn (Nat.not_lt_zero n)
  | two hlow hhigh hb =>
    obtain rfl : n = 0 := Nat.lt_one_iff.mp hn
    rw [next, if_neg (by omega), if_neg (by omega), if_pos hhigh]
    rfl
  | three hlow hhigh hb hc =>
    rw [next, if_neg (by omega), if_neg (by omega), if_neg (by omega), if_pos hhigh]
    have htwo : n < 2 := hn
    obtain rfl | rfl : n = 0 ∨ n = 1 := by omega
    · rfl
    · exact if_pos hb
  | four hlow hhigh hb hc hd =>
    rw [next, if_neg (by omega), if_neg (by omega), if_neg (by omega), if_neg (by omega),
      if_pos hhigh]
    have hthree : n < 3 := hn
    obtain rfl | rfl | rfl : n = 0 ∨ n = 1 ∨ n = 2 := by omega
    · rfl
    · exact if_pos hb
    · exact (if_pos hb).trans (if_pos hc)

/-- A byte that continues a character, where none has begun, is read alone. -/
theorem next_of_continues {b : UInt8} (h : continues b = true) (rest : List UInt8) :
    next b rest = .ill .startByte 1 := by
  rw [continues_iff] at h
  rw [next, if_neg (by omega), if_pos (by omega)]

/-- Each byte that continues no character is lost on its own. -/
theorem decode_continuations {bytes : List UInt8} (h : ∀ b ∈ bytes, continues b = true)
    (rest : List UInt8) :
    decode (bytes ++ rest) = List.replicate bytes.length replacement ++ decode rest := by
  induction bytes with
  | nil => rfl
  | cons b bytes ih =>
    rw [List.forall_mem_cons] at h
    rw [List.cons_append, decode_cons, next_of_continues h.1, List.length_cons,
      List.replicate_succ, List.cons_append, ← ih h.2]
    rfl

section Character

variable (c : Char)

theorem exists_completes : ∃ lead tail, String.utf8EncodeChar c = lead :: tail ∧
    Completes lead tail := by
  obtain ⟨lead, tail, hbytes, hnext⟩ := exists_next c []
  rw [List.append_nil] at hnext
  exact ⟨lead, tail, hbytes, completes_of_next hnext⟩

/-- All bytes of a character but the first one continue it. -/
theorem continues_of_mem_drop {n : Nat} (hn : 0 < n) {b : UInt8}
    (h : b ∈ (String.utf8EncodeChar c).drop n) : continues b = true := by
  obtain ⟨lead, tail, hbytes, hcompletes⟩ := exists_completes c
  obtain ⟨n, rfl⟩ := Nat.exists_eq_succ_of_ne_zero (Nat.ne_of_gt hn)
  rw [hbytes, List.drop_succ_cons] at h
  exact hcompletes.continues b (List.mem_of_mem_drop h)

/-- The first bytes of a character, without its last ones, are lost together. -/
theorem decode_take_char {n : Nat} (hpos : 0 < n) (hn : n < c.utf8Size) :
    decode ((String.utf8EncodeChar c).take n) = [replacement] := by
  obtain ⟨lead, tail, hbytes, hcompletes⟩ := exists_completes c
  obtain ⟨n, rfl⟩ := Nat.exists_eq_succ_of_ne_zero (Nat.ne_of_gt hpos)
  have hlength : c.utf8Size = tail.length + 1 := by
    rw [← String.length_utf8EncodeChar, hbytes, List.length_cons]
  have hpiece := hcompletes.next_take (n := n) (by omega)
  have hrest : (tail.take n).drop (n + 1 - 1) = [] :=
    List.drop_eq_nil_iff.mpr (by rw [List.length_take]; omega)
  rw [hbytes, List.take_succ_cons, decode_cons, hpiece]
  show replacement :: decode ((tail.take n).drop (n + 1 - 1)) = [replacement]
  rw [hrest, decode_nil]

end Character

/-! ## Ranges of bytes -/

/-- The bytes of a text from position `a` up to position `b`. -/
def range (text : List Char) (a b : Nat) : List UInt8 :=
  ((encode text).take b).drop a

/-- The positions in a range of bytes that belong to a character in front of which the
    range does not begin. -/
def strays (text : List Char) (a b : Nat) : Finset Nat :=
  {p ∈ Finset.Ico a b | ∃ m < text.length,
    width text m < a ∧ width text m ≤ p ∧ p < width text (m + 1)}

/-- `CutsAtEnd text a b`: position `b` lies inside a character that begins at `a` or behind
    it. -/
def CutsAtEnd (text : List Char) (a b : Nat) : Prop :=
  ∃ m < text.length, a ≤ width text m ∧ width text m < b ∧ b < width text (m + 1)

instance (text : List Char) (a b : Nat) : Decidable (CutsAtEnd text a b) :=
  inferInstanceAs (Decidable (∃ m < text.length, _))

section Ranges

variable {text : List Char} {a b i j : Nat}

/-- Where a bound is passed once and for all, the indices in front of it are the first. -/
theorem exists_index (n : Nat) {f : Nat → Nat} (hf : Monotone f) (bound : Nat) :
    ∃ i ≤ n, ∀ m < n, f m < bound ↔ m < i := by
  -- The last index decides: in front of the bound all are, behind it none is added.
  induction n with
  | zero => exact ⟨0, Nat.le_refl 0, fun m hm => absurd hm (Nat.not_lt_zero m)⟩
  | succ n ih =>
    obtain ⟨i, hi, hindex⟩ := ih
    by_cases hlast : f n < bound
    · refine ⟨n + 1, Nat.le_refl _, fun m hm => ⟨fun _ => hm, fun _ => ?_⟩⟩
      exact Nat.lt_of_le_of_lt (hf (Nat.le_of_lt_succ hm)) hlast
    · refine ⟨i, by omega, fun m hm => ?_⟩
      rcases Nat.lt_or_eq_of_le (Nat.le_of_lt_succ hm) with hlt | rfl
      · exact hindex m hlt
      · exact ⟨fun h => absurd h hlast, fun h => absurd h (by omega)⟩

/-- The first character that begins at a position or behind it. -/
structure Opens (text : List Char) (a i : Nat) : Prop where
  le_length : i ≤ text.length
  iff : ∀ m < text.length, width text m < a ↔ m < i

/-- The last boundary at a position or in front of it. -/
structure Closes (text : List Char) (b j : Nat) : Prop where
  le_length : j ≤ text.length
  iff : ∀ m < text.length, width text (m + 1) ≤ b ↔ m < j

theorem exists_opens (text : List Char) (a : Nat) : ∃ i, Opens text a i := by
  obtain ⟨i, hi, hindex⟩ :=
    exists_index text.length (f := width text) (fun _ _ h => width_mono text h) a
  exact ⟨i, hi, hindex⟩

theorem exists_closes (text : List Char) (b : Nat) : ∃ j, Closes text b j := by
  obtain ⟨j, hj, hindex⟩ := exists_index text.length (f := fun m => width text (m + 1))
    (fun _ _ h => width_mono text (Nat.succ_le_succ h)) (b + 1)
  exact ⟨j, hj, fun m hm => Nat.lt_succ_iff.symm.trans (hindex m hm)⟩

theorem Opens.le_width (h : Opens text a i) (hi : i < text.length) : a ≤ width text i := by
  have hnot := mt (h.iff i hi).mp (Nat.lt_irrefl i)
  omega

theorem Closes.width_le (h : Closes text b j) : width text j ≤ b := by
  rcases j with _ | j
  · exact Nat.zero_le b
  · have hj := h.le_length
    exact (h.iff j (by omega)).mpr (Nat.lt_succ_self j)

theorem Closes.lt_width (h : Closes text b j) (hj : j < text.length) : b < width text (j + 1) := by
  have hnot := mt (h.iff j hj).mp (Nat.lt_irrefl j)
  omega

/-- A range that reaches a boundary begins in front of the characters that it holds. -/
theorem Opens.le (h : Opens text a i) (hj : j ≤ text.length) (ha : a ≤ width text j) : i ≤ j := by
  by_contra hlt
  have hi := h.le_length
  have hwidth := (h.iff j (by omega)).mpr (by omega)
  omega

theorem range_append (text : List Char) {a b c : Nat} (hab : a ≤ b) (hbc : b ≤ c) :
    range text a b ++ range text b c = range text a c :=
  take_drop_append (encode text) hab hbc

theorem range_width (text : List Char) (i j : Nat) :
    range text (width text i) (width text j) = encode ((text.take j).drop i) :=
  extract_width text i j

/-- A position past the end stands for the end. -/
theorem range_eq_min (text : List Char) (a b : Nat) :
    range text a b = range text (min a (encode text).length) (min b (encode text).length) := by
  rw [range, range, ← List.take_eq_take_min]
  by_cases ha : a ≤ (encode text).length
  · rw [Nat.min_eq_left ha]
  · rw [List.drop_eq_nil_iff.mpr (by rw [List.length_take]; omega),
      List.drop_eq_nil_iff.mpr (by rw [List.length_take]; omega)]

theorem length_range : (range text a b).length = min b (encode text).length - a := by
  rw [range, List.length_drop, List.length_take]

/-- Inside a character a range holds bytes of that character. -/
theorem range_of_inside {m : Nat} (hm : m < text.length) (ha : width text m ≤ a)
    (hb : b ≤ width text (m + 1)) :
    range text a b = ((String.utf8EncodeChar text[m]).take (b - width text m)).drop
      (a - width text m) := by
  have hchar : range text (width text m) (width text (m + 1)) = String.utf8EncodeChar text[m] := by
    rw [range_width, List.take_add_one, List.getElem?_eq_getElem hm,
      List.drop_append_of_le_length (by rw [List.length_take]; omega),
      List.drop_eq_nil_iff.mpr (by rw [List.length_take]; omega)]
    exact List.append_nil _
  rw [← hchar, range, range, List.take_drop, List.take_take, List.drop_drop,
    Nat.add_sub_cancel' ha]
  by_cases hle : width text m ≤ b
  · rw [Nat.add_sub_cancel' hle, Nat.min_eq_left hb]
  · rw [List.drop_eq_nil_iff.mpr (by rw [List.length_take]; omega),
      List.drop_eq_nil_iff.mpr (by rw [List.length_take]; omega)]

/-- The strays of a range are its positions in front of its first character. -/
theorem card_strays (h : Opens text a i) : (strays text a b).card = min b (width text i) - a := by
  have hstrays : strays text a b = Finset.Ico a (min b (width text i)) := by
    ext p
    simp only [strays, Finset.mem_filter, Finset.mem_Ico, Nat.lt_min]
    constructor
    · rintro ⟨⟨hap, hpb⟩, m, hm, hma, -, hpm⟩
      have hmi : m < i := (h.iff m hm).mp hma
      have hmono : width text (m + 1) ≤ width text i := width_mono text hmi
      exact ⟨hap, hpb, by omega⟩
    · rintro ⟨hap, hpb, hpi⟩
      refine ⟨⟨hap, hpb⟩, ?_⟩
      -- The position lies in the last character that begins in front of the range.
      obtain ⟨m, rfl⟩ : ∃ m, i = m + 1 :=
        Nat.exists_eq_succ_of_ne_zero fun hi => Nat.not_lt_zero p (by rwa [hi] at hpi)
      have hm : m < text.length := h.le_length
      have hma : width text m < a := (h.iff m hm).mpr (Nat.lt_succ_self m)
      exact ⟨m, hm, hma, by omega, hpi⟩
  rw [hstrays, Nat.card_Ico]

/-- In front of its first character a range holds bytes that continue no character. -/
theorem continues_of_mem_range (h : Opens text a i) (hb : b ≤ width text i) :
    ∀ x ∈ range text a b, continues x = true := by
  intro x hx
  rcases i with _ | m
  · have hlength : (range text a b).length = 0 := by
      rw [length_range]
      rw [width_zero] at hb
      omega
    rw [List.length_eq_zero_iff.mp hlength] at hx
    cases hx
  · have hm : m < text.length := h.le_length
    have hma : width text m < a := (h.iff m hm).mpr (Nat.lt_succ_self m)
    rw [range_of_inside hm (Nat.le_of_lt hma) hb, List.drop_take] at hx
    exact continues_of_mem_drop text[m] (by omega) (List.mem_of_mem_take hx)

/-- Up to a boundary a range reads as its strays and its characters, whatever follows. -/
theorem decode_range_append (h : Opens text a i) (hj : j ≤ text.length) (ha : a ≤ width text j)
    (rest : List UInt8) :
    decode (range text a (width text j) ++ rest) =
      List.replicate (width text i - a) replacement ++ (text.take j).drop i ++ decode rest := by
  have hij : i ≤ j := h.le hj ha
  have hai : a ≤ width text i := by
    rcases Nat.lt_or_eq_of_le hij with hlt | rfl
    · exact h.le_width (by omega)
    · exact ha
  have hlength : (range text a (width text i)).length = width text i - a := by
    rw [length_range, Nat.min_eq_left (Utf8.width_le text i)]
  rw [← range_append text hai (width_mono text hij), List.append_assoc,
    decode_continuations (continues_of_mem_range h (Nat.le_refl _)), hlength, range_width,
    decode_encode_append, List.append_assoc]

theorem cutsAtEnd_iff (h : Closes text b j) :
    CutsAtEnd text a b ↔ j < text.length ∧ a ≤ width text j ∧ width text j < b := by
  constructor
  · rintro ⟨m, hm, ham, hmb, hbm⟩
    have hjm : ¬m < j := mt (h.iff m hm).mpr (by omega)
    obtain rfl : m = j := by
      by_contra hne
      have hmono : width text (j + 1) ≤ width text m := width_mono text (by omega)
      have hlt := h.lt_width (by omega)
      omega
    exact ⟨hm, ham, hmb⟩
  · rintro ⟨hj, haj, hjb⟩
    exact ⟨j, hj, haj, hjb, h.lt_width hj⟩

/-- Behind its last boundary a range reads as one U+FFFD, if it holds anything there. -/
theorem decode_range_end (h : Closes text b j) (ha : a ≤ width text j) :
    decode (range text (width text j) b) = if CutsAtEnd text a b then [replacement] else [] := by
  have hle := h.width_le
  by_cases hcut : CutsAtEnd text a b
  · obtain ⟨hj, -, hjb⟩ := (cutsAtEnd_iff h).mp hcut
    have hlt := h.lt_width hj
    have hwidth := width_succ (List.getElem?_eq_getElem hj)
    rw [if_pos hcut, range_of_inside hj (Nat.le_refl _) (Nat.le_of_lt hlt), Nat.sub_self,
      List.drop_zero]
    exact decode_take_char text[j] (by omega) (by omega)
  · have hempty : range text (width text j) b = [] := by
      rw [cutsAtEnd_iff h] at hcut
      rw [← List.length_eq_zero_iff, length_range]
      rcases Nat.lt_or_eq_of_le h.le_length with hj | rfl
      · omega
      · rw [width_length]
        omega
    rw [if_neg hcut, hempty, decode_nil]

/-- The text of a range of bytes: a U+FFFD for each stray byte, the characters, and one more
    U+FFFD for a character that is cut at the end. -/
theorem decode_range (hopens : Opens text a i) (hcloses : Closes text b j) (hab : a ≤ b) :
    decode (range text a b) =
      List.replicate (strays text a b).card replacement ++ (text.take j).drop i ++
        if CutsAtEnd text a b then [replacement] else [] := by
  have hjb := hcloses.width_le
  rw [card_strays hopens]
  by_cases haj : a ≤ width text j
  · have hij := width_mono text (hopens.le hcloses.le_length haj)
    rw [← range_append text haj hjb, decode_range_append hopens hcloses.le_length haj,
      decode_range_end hcloses haj, Nat.min_eq_right (by omega)]
  · -- The whole range lies inside the character at `j`, or behind the last one.
    have hji : j ≤ i := by
      by_contra hlt
      have hj := hcloses.le_length
      have hle := hopens.le_width (by omega)
      have hmono := width_mono text (Nat.le_of_not_le hlt)
      omega
    have hempty : (text.take j).drop i = [] :=
      List.drop_eq_nil_iff.mpr (by rw [List.length_take]; omega)
    have hcut : ¬CutsAtEnd text a b := by
      rw [cutsAtEnd_iff hcloses]
      omega
    have hstrays : (∀ x ∈ range text a b, continues x = true) ∧
        (range text a b).length = min b (width text i) - a := by
      have hi := Utf8.width_le text i
      rw [length_range]
      rcases Nat.lt_or_eq_of_le hcloses.le_length with hj | rfl
      · have hlt := hcloses.lt_width hj
        have hnext : j < i := (hopens.iff j hj).mp (by omega)
        have hmono : width text (j + 1) ≤ width text i := width_mono text hnext
        exact ⟨continues_of_mem_range hopens (by omega), by omega⟩
      · rw [width_length] at haj
        have hnone : range text a b = [] := by
          rw [← List.length_eq_zero_iff, length_range]
          omega
        rw [hnone]
        exact ⟨fun x hx => absurd hx List.not_mem_nil, by omega⟩
    have hdecode := decode_continuations hstrays.1 []
    rw [List.append_nil, decode_nil, hstrays.2] at hdecode
    rw [hdecode, hempty, if_neg hcut, List.append_nil, List.append_nil]

end Ranges

end Utf8

/-! ## The text of a range -/

section ByteMap

open Utf8 (encode width range strays CutsAtEnd replacement)

variable (source : String)

/-- `BoundaryOrEnd source p`: the byte position `p`, moved to the end of the source when it is
    past it, cuts no character. -/
def BoundaryOrEnd (p : Nat) : Prop :=
  Boundary source (min p (encode source.toList).length)

theorem text_eq_decode_range (a b : Nat) :
    (ByteMap.ofSource source).text a b =
      String.ofList (Utf8.decode (range source.toList a b)) := by
  rw [Utf8.range_eq_min]
  simp only [ByteMap.text, ByteMap.ofSource, List.size_toArray, bound_natCast,
    Array.toList_extract, List.extract_eq_drop_take', range]

variable {source} {p : Nat}

/-- No character lies on both sides of a boundary. -/
theorem BoundaryOrEnd.width_le (h : BoundaryOrEnd source p) {m : Nat}
    (hlow : width source.toList m < p) :
    width source.toList (m + 1) ≤ p := by
  obtain ⟨q, hq, hwidth⟩ := h
  rw [← String.length_toList] at hq
  have hle := Utf8.width_le source.toList (m + 1)
  by_contra hhigh
  have hmq : m < q := by
    by_contra hqm
    have hmono := Utf8.width_mono source.toList (Nat.le_of_not_lt hqm)
    omega
  have hmono : width source.toList (m + 1) ≤ width source.toList q :=
    Utf8.width_mono source.toList hmq
  omega

/-- The character offset of a boundary, as a bound of the source, names the characters in
    front of it. -/
theorem BoundaryOrEnd.exists_toChar (h : BoundaryOrEnd source p) :
    ∃ i : Int, (ByteMap.ofSource source).toChar p = .ok i ∧
      width source.toList (bound source.toList.length i) =
        min p (encode source.toList).length := by
  refine ⟨_, Ast.toChar_ofSource source (by omega), ?_⟩
  obtain ⟨q, hq, hwidth⟩ := h
  rw [← String.length_toList] at hq
  by_cases hp : p ≤ (encode source.toList).length
  · rw [Nat.min_eq_left hp] at hwidth ⊢
    rw [← hwidth, Ast.charOffset_width source (by rwa [← String.length_toList]), bound_natCast,
      Nat.min_eq_left hq]
  · have hend := Ast.charOffset_width source (i := source.length) (Nat.le_refl _)
    rw [← String.length_toList, Utf8.width_length] at hend
    have hmono := Ast.charOffset_mono source (Nat.le_of_not_le hp)
    have hbound : bound source.toList.length (Ast.charOffset source p) = source.toList.length := by
      rw [bound_of_nonneg _ (by omega)]
      omega
    rw [hbound, Utf8.width_length]
    omega

/-- Between two boundaries a range has neither strays nor a character cut at its end. -/
theorem BoundaryOrEnd.strays_eq_empty {a : Nat} (h : BoundaryOrEnd source a) (b : Nat) :
    strays source.toList a b = ∅ := by
  rw [strays, Finset.filter_eq_empty_iff]
  rintro p hp ⟨m, -, hma, -, hpm⟩
  have hle := h.width_le hma
  have hap := (Finset.mem_Ico.mp hp).1
  omega

theorem BoundaryOrEnd.not_cutsAtEnd {b : Nat} (h : BoundaryOrEnd source b) (a : Nat) :
    ¬CutsAtEnd source.toList a b := by
  rintro ⟨m, -, -, hmb, hbm⟩
  have hle := h.width_le hmb
  omega

/-- At a boundary the reading of bytes can be broken off and taken up again. -/
theorem BoundaryOrEnd.text_append {a b c : Nat} (h : BoundaryOrEnd source b) (hab : a ≤ b)
    (hbc : b ≤ c) :
    (ByteMap.ofSource source).text a b ++ (ByteMap.ofSource source).text b c =
      (ByteMap.ofSource source).text a c := by
  rw [text_eq_decode_range, text_eq_decode_range, text_eq_decode_range, ← String.ofList_append,
    ← Utf8.range_append source.toList hab hbc]
  congr 1
  by_cases hb : b ≤ (encode source.toList).length
  · obtain ⟨q, hq, hwidth⟩ := h
    rw [← String.length_toList] at hq
    obtain rfl : width source.toList q = b := hwidth.trans (Nat.min_eq_left hb)
    obtain ⟨i, hopens⟩ := Utf8.exists_opens source.toList a
    have hfront := Utf8.decode_range_append hopens hq hab []
    rw [List.append_nil, Utf8.decode_nil, List.append_nil] at hfront
    rw [Utf8.decode_range_append hopens hq hab, hfront]
  · have hempty : range source.toList b c = [] := by
      rw [← List.length_eq_zero_iff, Utf8.length_range]
      omega
    rw [hempty, List.append_nil, Utf8.decode_nil, List.append_nil]

/-- Between two boundaries the bytes read as the characters between their offsets. -/
theorem text_of_boundaries {a b : Nat} (ha : BoundaryOrEnd source a)
    (hb : BoundaryOrEnd source b) :
    ∃ i j : Int, (ByteMap.ofSource source).toChar a = .ok i ∧
      (ByteMap.ofSource source).toChar b = .ok j ∧
      (ByteMap.ofSource source).text a b = substring source i j := by
  obtain ⟨i, hi, hwidthi⟩ := ha.exists_toChar
  obtain ⟨j, hj, hwidthj⟩ := hb.exists_toChar
  refine ⟨i, j, hi, hj, ?_⟩
  rw [text_eq_decode_range, Utf8.range_eq_min, ← hwidthi, ← hwidthj, Utf8.range_width, Utf8.decode_encode]
  rfl

variable (source) in
/-- The text of any range of bytes of a source, a position past the end standing for the
    end.  It is a U+FFFD for each byte of the range that belongs to a character beginning
    in front of it, then the run of the characters that lie wholly in the range, then one
    more U+FFFD exactly if the range stops inside a character that begins in it.  Between
    two boundaries it is the part of the source between their character offsets, and there
    is nothing to replace.  The texts of two ranges that meet at a boundary are together
    the text of the range that they cover. -/
theorem byte_range_loses_only_cut_characters :
    let text := source.toList
    let map := ByteMap.ofSource source
    (∀ a b : Nat, a ≤ b → ∃ i j : Nat,
      (∀ m < text.length, i ≤ m ∧ m < j ↔ a ≤ width text m ∧ width text (m + 1) ≤ b) ∧
      (map.text a b).toList =
        List.replicate (strays text a b).card replacement ++ slice text i j ++
          if CutsAtEnd text a b then [replacement] else []) ∧
    (∀ a b : Nat, BoundaryOrEnd source a → BoundaryOrEnd source b →
      strays text a b = ∅ ∧ ¬CutsAtEnd text a b ∧
      ∃ i j : Int, map.toChar a = .ok i ∧ map.toChar b = .ok j ∧
        map.text a b = substring source i j) ∧
    ∀ a b c : Nat, a ≤ b → b ≤ c → BoundaryOrEnd source b →
      map.text a b ++ map.text b c = map.text a c := by
  intro text map
  refine ⟨?_, fun a b ha hb => ⟨ha.strays_eq_empty b, hb.not_cutsAtEnd a, text_of_boundaries ha hb⟩,
    fun a b c hab hbc hb => hb.text_append hab hbc⟩
  intro a b hab
  obtain ⟨i, hopens⟩ := Utf8.exists_opens text a
  obtain ⟨j, hcloses⟩ := Utf8.exists_closes text b
  refine ⟨i, j, fun m hm => ?_, ?_⟩
  · have hfirst := hopens.iff m hm
    have hlast := hcloses.iff m hm
    omega
  · have hslice : slice text i j = (text.take j).drop i := by
      rw [slice, bound_natCast, bound_natCast, Nat.min_eq_left hopens.le_length,
        Nat.min_eq_left hcloses.le_length]
    rw [hslice, ← Utf8.decode_range hopens hcloses hab, text_eq_decode_range,
      String.toList_ofList]

/-- A range that starts inside a character of two bytes, holds one of a single byte and
    stops inside one of four. -/
theorem byte_range_loses_only_cut_characters_bothEnds :
    ((strays "aéb😀".toList 2 6).card = 1 ∧ CutsAtEnd "aéb😀".toList 2 6 ∧
      ∃ i j : Nat, ((ByteMap.ofSource "aéb😀").text 2 6).toList =
        List.replicate (strays "aéb😀".toList 2 6).card replacement ++
          slice "aéb😀".toList i j ++
            if CutsAtEnd "aéb😀".toList 2 6 then [replacement] else []) ∧
    BoundaryOrEnd "aéb😀" 4 ∧
    (ByteMap.ofSource "aéb😀").text 2 4 ++ (ByteMap.ofSource "aéb😀").text 4 6 =
      (ByteMap.ofSource "aéb😀").text 2 6 := by
  obtain ⟨hrange, -, happend⟩ := byte_range_loses_only_cut_characters "aéb😀"
  obtain ⟨i, j, -, htext⟩ := hrange 2 6 (by decide)
  have hboundary : BoundaryOrEnd "aéb😀" 4 := ⟨3, by decide, by decide⟩
  exact ⟨⟨by decide, by decide, i, j, htext⟩, hboundary,
    happend 2 4 6 (by decide) (by decide) hboundary⟩

end ByteMap

end EsFeatures.Text
