/-
  EsFeatures.Proofs.CharacterIndex

  The character of a byte position.  Up to the end of a text every position belongs to
  exactly one character, and the byte map gives the index of that one, from its table or,
  where all characters take a single byte, without any.  So the map inverts the widths of
  prefixes, its answer never lies behind the position, and a later position never has an
  earlier answer.
-/
import EsFeatures.Proofs.ByteRanges

namespace EsFeatures.Text

namespace Utf8

/-! ## One character for each position -/

section Covers

variable {text : List Char} {i j p q : Nat}

/-- A text with as many bytes as characters has only characters of one byte. -/
theorem length_encode_eq_iff (text : List Char) :
    (encode text).length = text.length ↔ ∀ c ∈ text, c.utf8Size = 1 := by
  induction text with
  | nil => exact ⟨fun _ => List.forall_mem_nil _, fun _ => rfl⟩
  | cons c text ih =>
    -- No character takes less than one byte, so a longer one could not be made up for.
    have hpos := c.utf8Size_pos
    have hle := length_le_length_encode text
    rw [length_encode_cons, List.length_cons, List.forall_mem_cons, ← ih]
    omega

/-- A later position does not belong to an earlier character. -/
theorem Covers.le_of_le (hi : Covers text i p) (hj : Covers text j q) (h : p ≤ q) : i ≤ j := by
  by_contra hlt
  have hstarts := hi.starts
  have hle := hi.le_length
  rcases hj.stops with hstops | ⟨hend, -⟩
  · have hmono : width text (j + 1) ≤ width text i := width_mono text (by omega)
    omega
  · omega

theorem Covers.unique (hi : Covers text i p) (hj : Covers text j p) : i = j :=
  Nat.le_antisymm (hi.le_of_le hj (Nat.le_refl p)) (hj.le_of_le hi (Nat.le_refl p))

/-- Every position up to the end belongs to a character. -/
theorem exists_covers (h : p ≤ width text text.length) : ∃ i, Covers text i p := by
  obtain ⟨i, hcloses⟩ := exists_closes text p
  refine ⟨i, hcloses.le_length, hcloses.width_le, ?_⟩
  rcases Nat.lt_or_eq_of_le hcloses.le_length with hlt | heq
  · exact Or.inl (hcloses.lt_width hlt)
  · have hle := hcloses.width_le
    rw [heq] at hle
    exact Or.inr ⟨heq, Nat.le_antisymm h hle⟩

/-- A character begins at a position that belongs to it only if that is a boundary. -/
theorem Covers.width_eq_iff {source : String} (h : Covers source.toList i p) :
    width source.toList i = p ↔ Boundary source p := by
  constructor
  · intro heq
    have hle := h.le_length
    rw [String.length_toList] at hle
    exact ⟨i, hle, heq⟩
  · rintro ⟨j, hj, rfl⟩
    rw [← String.length_toList] at hj
    rw [h.unique (covers_width hj)]

end Covers

end Utf8

/-! ## The byte map as an inverse -/

section ByteMap

open Utf8 (encode width Covers)

variable (source : String)

theorem table_eq_none_iff :
    (ByteMap.ofSource source).table = none ↔ ∀ c ∈ source.toList, c.utf8Size = 1 := by
  rw [← Utf8.length_encode_eq_iff]
  simp only [ByteMap.ofSource]
  split
  · rename_i hbytes
    exact ⟨fun _ => hbytes, fun _ => rfl⟩
  · rename_i hbytes
    exact ⟨fun h => absurd h (Option.some_ne_none _), fun h => absurd h hbytes⟩

variable {source} {i p q : Nat}

theorem toChar_of_covers (h : Covers source.toList i p) :
    (ByteMap.ofSource source).toChar p = .ok (i : Int) := by
  rw [Ast.toChar_ofSource source (by omega), Ast.charOffset_of_covers h]

/-- The character of a position does not begin behind it, and begins there only at a
    boundary. -/
theorem exists_toChar_width_le (source : String) (p : Nat) :
    ∃ i : Nat, (ByteMap.ofSource source).toChar p = .ok (i : Int) ∧
      width source.toList i ≤ p ∧ (width source.toList i = p ↔ Boundary source p) := by
  by_cases hp : p ≤ width source.toList source.toList.length
  · obtain ⟨i, hi⟩ := Utf8.exists_covers hp
    exact ⟨i, toChar_of_covers hi, hi.starts, hi.width_eq_iff⟩
  · -- Past the end no prefix is as wide as the position, and no boundary stands there.
    rw [Utf8.width_length] at hp
    have hless : ∀ i, width source.toList i < p := by
      intro i
      have hle := Utf8.width_le source.toList i
      omega
    obtain ⟨i, hi⟩ :=
      Int.eq_ofNat_of_zero_le (Ast.charOffset_nonneg source (Int.natCast_nonneg p))
    refine ⟨i, ?_, Nat.le_of_lt (hless i), ?_, ?_⟩
    · rw [Ast.toChar_ofSource source (by omega), hi]
    · intro heq
      exact absurd heq (Nat.ne_of_lt (hless i))
    · rintro ⟨j, -, heq⟩
      exact absurd heq (Nat.ne_of_lt (hless j))

/-- The byte map inverts the widths of prefixes.  It keeps no table exactly if every
    character takes one byte.  Either way the answer for a position up to the end of the
    source is the one index whose prefix is not wider than the position while the next
    prefix is, and the length of the source at the end.  The width of a prefix is
    answered by its length.  No answer has a prefix wider than the position, and one as
    wide is had exactly at the boundaries between characters.  A later position never has
    a smaller answer, also past the end. -/
theorem toChar_inverts_width (source : String) :
    let text := source.toList
    let map := ByteMap.ofSource source
    (map.table = none ↔ ∀ c ∈ text, c.utf8Size = 1) ∧
    (∀ p ≤ width text text.length, ∃ i : Nat, map.toChar p = .ok (i : Int) ∧
      ∀ j, Covers text j p ↔ j = i) ∧
    (∀ i ≤ text.length, map.toChar (width text i) = .ok (i : Int)) ∧
    (∀ p : Nat, ∃ i : Nat, map.toChar p = .ok (i : Int) ∧
      width text i ≤ p ∧ (width text i = p ↔ Boundary source p)) ∧
    ∀ p q : Nat, p ≤ q → ∃ i j : Int, map.toChar p = .ok i ∧ map.toChar q = .ok j ∧ i ≤ j := by
  intro text map
  refine ⟨table_eq_none_iff source, ?_, fun i hi => toChar_of_covers (Utf8.covers_width hi),
    exists_toChar_width_le source, ?_⟩
  · intro p hp
    obtain ⟨i, hi⟩ := Utf8.exists_covers hp
    refine ⟨i, toChar_of_covers hi, fun j => ⟨fun hj => hj.unique hi, ?_⟩⟩
    rintro rfl
    exact hi
  · intro p q hpq
    exact ⟨_, _, Ast.toChar_ofSource source (by omega), Ast.toChar_ofSource source (by omega),
      Ast.charOffset_mono source hpq⟩

/-- The second byte of a character of three belongs to it, the end of a source of single
    bytes has its length, and past the end the answers do not fall. -/
theorem toChar_inverts_width_mixedWidths :
    (∃ i : Nat, (ByteMap.ofSource "a日b").toChar (2 : Nat) = .ok (i : Int) ∧
      ∀ j, Covers "a日b".toList j 2 ↔ j = i) ∧
    (ByteMap.ofSource "abc").toChar (width "abc".toList 3) = .ok (3 : Nat) ∧
    ∃ i j : Int, (ByteMap.ofSource "a日b").toChar (5 : Nat) = .ok i ∧
      (ByteMap.ofSource "a日b").toChar (9 : Nat) = .ok j ∧ i ≤ j := by
  obtain ⟨-, hunique, -, -, hmono⟩ := toChar_inverts_width "a日b"
  obtain ⟨-, -, hwidth, -⟩ := toChar_inverts_width "abc"
  exact ⟨hunique 2 (by decide), hwidth 3 (by decide), hmono 5 9 (by decide)⟩

end ByteMap

end EsFeatures.Text
