/-
  EsFeatures.Proofs.Coordinates

  Lines and columns as coordinates of a source.  The line table of a text begins with the
  table of each of its prefixes and goes on with offsets beyond the prefix, so a search of
  the table for an offset ends right behind the last line of the text in front of it.
  Hence the line counts the line feeds in front of an offset, the column counts the
  characters behind the last of them, and the two together give the offset back.
-/
import EsFeatures.Text.Position
import Mathlib.Data.List.DropRight

namespace EsFeatures.Text

/-! ## The line table -/

section LineTable

variable (text : List Char)

theorem lineStartsFrom_append (offset : Nat) (front back : List Char) :
    lineStartsFrom offset (front ++ back) =
      lineStartsFrom offset front ++ lineStartsFrom (offset + front.length) back := by
  induction front generalizing offset with
  | nil => rfl
  | cons c front ih =>
    have hlength : offset + (c :: front).length = offset + 1 + front.length := by
      rw [List.length_cons]
      omega
    rw [List.cons_append, lineStartsFrom, lineStartsFrom, ih, hlength]
    split
    · rfl
    · rfl

/-- The table of a text begins with the table of each prefix. -/
theorem lineStarts_append (front back : List Char) :
    lineStarts (front ++ back) = lineStarts front ++ lineStartsFrom front.length back := by
  rw [lineStarts, lineStartsFrom_append, Nat.zero_add]
  rfl

theorem lineStarts_concat_lineFeed :
    lineStarts (text ++ ['\n']) = lineStarts text ++ [text.length + 1] :=
  lineStarts_append text ['\n']

theorem lineStarts_concat_of_ne {c : Char} (h : c ≠ '\n') :
    lineStarts (text ++ [c]) = lineStarts text := by
  rw [lineStarts_append, lineStartsFrom, if_neg h, lineStartsFrom, List.append_nil]

variable {text} in
/-- Further lines start beyond the offset from which they are counted. -/
theorem lt_of_mem_lineStartsFrom {offset start : Nat} (h : start ∈ lineStartsFrom offset text) :
    offset < start := by
  induction text generalizing offset with
  | nil => cases h
  | cons c rest ih =>
    rw [lineStartsFrom] at h
    split at h
    · obtain rfl | hrest := List.mem_cons.mp h
      · omega
      · have hlt := ih hrest
        omega
    · have hlt := ih h
      omega

variable {text} in
theorem le_length_of_mem_lineStarts {start : Nat} (h : start ∈ lineStarts text) :
    start ≤ text.length := by
  induction text using List.reverseRecOn with
  | nil =>
    obtain rfl : start = 0 := List.mem_singleton.mp h
    exact Nat.le_refl 0
  | append_singleton front c ih =>
    rw [List.length_append, List.length_singleton]
    by_cases hc : c = '\n'
    · rw [hc, lineStarts_concat_lineFeed, List.mem_append, List.mem_singleton] at h
      obtain hfront | rfl := h
      · have hle := ih hfront
        omega
      · exact Nat.le_refl _
    · rw [lineStarts_concat_of_ne front hc] at h
      have hle := ih h
      omega

theorem length_lineStarts : (lineStarts text).length = 1 + text.count '\n' := by
  induction text using List.reverseRecOn with
  | nil => rfl
  | append_singleton front c ih =>
    by_cases hc : c = '\n'
    · rw [hc, lineStarts_concat_lineFeed, List.length_append, ih, List.count_append]
      rfl
    · rw [lineStarts_concat_of_ne front hc, ih, List.count_append, List.count_singleton,
        beq_false_of_ne hc]
      rfl

/-- The characters behind the last line feed of a text. -/
def lastLine : List Char :=
  text.rtakeWhile (· ≠ '\n')

/-- The last line of a text starts where the characters behind the last line feed do. -/
theorem getLast?_lineStarts :
    ∃ start, (lineStarts text).getLast? = some start ∧
      start + (lastLine text).length = text.length := by
  induction text using List.reverseRecOn with
  | nil => exact ⟨0, rfl, rfl⟩
  | append_singleton front c ih =>
    rw [List.length_append, List.length_singleton]
    by_cases hc : c = '\n'
    · have hlast : lastLine (front ++ [c]) = [] := List.rtakeWhile_concat_neg _ _ _ (by simp [hc])
      refine ⟨front.length + 1, ?_, ?_⟩
      · rw [hc, lineStarts_concat_lineFeed, List.getLast?_concat]
      · rw [hlast]
        rfl
    · obtain ⟨start, hstart, hlength⟩ := ih
      have hlast : lastLine (front ++ [c]) = lastLine front ++ [c] :=
        List.rtakeWhile_concat_pos _ _ _ (by simp [hc])
      refine ⟨start, ?_, ?_⟩
      · rw [lineStarts_concat_of_ne front hc, hstart]
      · rw [hlast, List.length_append, List.length_singleton]
        omega

end LineTable

/-! ## The search of the table -/

section Search

variable {front back : List Nat} {place : Nat}

/-- A table whose entries up to some point are not beyond `place` and whose entries from
    there on are is searched up to that point. -/
theorem bisectFrom_append (hfront : ∀ start ∈ front, start ≤ place)
    (hback : ∀ start ∈ back, place < start) (low high : Nat)
    (hhigh : high ≤ (front ++ back).toArray.size) (hlow : low ≤ front.length)
    (hle : front.length ≤ high) :
    bisectFrom (front ++ back).toArray place low high hhigh = front.length := by
  -- The point stays between the two ends of the part that is halved.
  fun_induction bisectFrom (front ++ back).toArray place low high hhigh with
  | case1 low high hhigh hlt middle hmiddle hbeyond ih =>
    apply ih hlow
    by_contra hless
    have hmem : (front ++ back).toArray[middle] ∈ front := by
      rw [List.getElem_toArray, List.getElem_append_left (by omega)]
      exact List.getElem_mem _
    have hle := hfront _ hmem
    omega
  | case2 low high hhigh hlt middle hmiddle hbeyond ih =>
    refine ih ?_ hle
    by_contra hless
    have hmem : (front ++ back).toArray[middle] ∈ back := by
      rw [List.getElem_toArray, List.getElem_append_right (by omega)]
      exact List.getElem_mem _
    have hlt := hback _ hmem
    omega
  | case3 low high hhigh hge => omega

theorem bisect_append (hfront : ∀ start ∈ front, start ≤ place)
    (hback : ∀ start ∈ back, place < start) :
    bisect (front ++ back).toArray place = front.length := by
  apply bisectFrom_append hfront hback
  · exact Nat.zero_le _
  · rw [List.size_toArray, List.length_append]
    omega

end Search

/-- The search of a line table ends behind the lines of the text in front of the offset. -/
theorem bisect_lineStarts {text : List Char} {place : Nat} (h : place ≤ text.length) :
    bisect (lineStarts text).toArray place = (lineStarts (text.take place)).length := by
  have hlength : (text.take place).length = place := List.length_take_of_le h
  have htable : lineStarts text =
      lineStarts (text.take place) ++ lineStartsFrom place (text.drop place) := by
    have happend := lineStarts_append (text.take place) (text.drop place)
    rwa [List.take_append_drop, hlength] at happend
  rw [htable]
  apply bisect_append
  · intro start hstart
    exact hlength ▸ le_length_of_mem_lineStarts hstart
  · intro start hstart
    exact lt_of_mem_lineStartsFrom hstart

/-- The start of the last line in front of an offset stands in the line table, at the index
    of that line. -/
theorem getElem?_lineStarts {text : List Char} {place : Nat} (h : place ≤ text.length) :
    ∃ start, (lineStarts text)[(lineStarts (text.take place)).length - 1]? = some start ∧
      start + (lastLine (text.take place)).length = place := by
  obtain ⟨start, hstart, hlength⟩ := getLast?_lineStarts (text.take place)
  rw [List.getLast?_eq_getElem?] at hstart
  rw [List.length_take_of_le h] at hlength
  refine ⟨start, ?_, hlength⟩
  have happend := lineStarts_append (text.take place) (text.drop place)
  rw [List.take_append_drop] at happend
  have hpos : 0 < (lineStarts (text.take place)).length := Nat.succ_pos _
  rw [happend, List.getElem?_append_left (by omega), hstart]

/-! ## Positions -/

namespace Position

/-- The order in which a reader comes to places: by lines, then by columns. -/
def Before (p q : Position) : Prop :=
  p.line < q.line ∨ p.line = q.line ∧ p.column < q.column

section Coordinates

variable (source : String)

theorem ofOffset_of_neg {offset : Int} (h : offset < 0) : ofOffset source offset = ⟨1, 1⟩ :=
  if_pos h

/-- What the line and the column of an offset count. -/
theorem ofOffset_eq {place : Nat} {offset : Int} (h : 0 ≤ offset)
    (hplace : min offset.toNat source.toList.length = place) :
    ofOffset source offset =
      ⟨1 + (source.toList.take place).count '\n',
        1 + (lastLine (source.toList.take place)).length⟩ := by
  have hle : place ≤ source.toList.length := hplace ▸ Nat.min_le_right _ _
  have hline := bisect_lineStarts hle
  obtain ⟨start, hstart, hlength⟩ := getElem?_lineStarts hle
  obtain ⟨hindex, hentry⟩ := List.getElem?_eq_some_iff.mp hstart
  have hcolumn : place - start + 1 = 1 + (lastLine (source.toList.take place)).length := by omega
  have hnonneg : ¬offset < 0 := by omega
  simp only [ofOffset, if_neg hnonneg, hplace, hline, List.getElem_toArray, hentry, hcolumn]
  rw [length_lineStarts]

variable {source} in
theorem ofOffset_natCast {place : Nat} (h : place ≤ source.toList.length) :
    ofOffset source place =
      ⟨1 + (source.toList.take place).count '\n',
        1 + (lastLine (source.toList.take place)).length⟩ := by
  apply ofOffset_eq source (Int.natCast_nonneg place)
  rw [Int.toNat_natCast, Nat.min_eq_left h]

theorem line_bounds (offset : Int) :
    1 ≤ (ofOffset source offset).line ∧
      (ofOffset source offset).line ≤ 1 + source.toList.count '\n' := by
  by_cases h : offset < 0
  · rw [ofOffset_of_neg source h]
    exact ⟨Nat.le_refl 1, Nat.le_add_right 1 _⟩
  · rw [ofOffset_eq source (by omega) rfl]
    have hcount := (List.take_sublist (min offset.toNat source.toList.length)
      source.toList).count_le '\n'
    exact ⟨Nat.le_add_right 1 _, Nat.add_le_add_left hcount 1⟩

/-- The entry of the line table at the line, with the column, gives the offset back. -/
theorem lineStart_add_column {place : Nat} (h : place ≤ source.toList.length) :
    ∃ start, (lineStarts source.toList)[(ofOffset source place).line - 1]? = some start ∧
      start + ((ofOffset source place).column - 1) = place := by
  obtain ⟨start, hstart, hlength⟩ := getElem?_lineStarts h
  rw [length_lineStarts] at hstart
  rw [ofOffset_natCast h]
  refine ⟨start, hstart, ?_⟩
  show start + (1 + _ - 1) = place
  omega

/-- Of two offsets the smaller one has the earlier place. -/
theorem before_of_lt {i j : Nat} (h : i < j) (hj : j ≤ source.toList.length) :
    (ofOffset source i).Before (ofOffset source j) := by
  have hi : i ≤ source.toList.length := by omega
  have hlines : (ofOffset source i).line ≤ (ofOffset source j).line := by
    rw [ofOffset_natCast hi, ofOffset_natCast hj]
    have hsublist : (source.toList.take i).Sublist (source.toList.take j) :=
      List.take_sublist_take_left (Nat.le_of_lt h)
    exact Nat.add_le_add_left (hsublist.count_le '\n') 1
  rcases Nat.lt_or_eq_of_le hlines with hlt | heq
  · exact Or.inl hlt
  · -- On the same line both columns are counted from the same start.
    obtain ⟨start, hstart, hi⟩ := lineStart_add_column source hi
    obtain ⟨start', hstart', hj⟩ := lineStart_add_column source hj
    rw [heq, hstart'] at hstart
    obtain rfl : start' = start := Option.some.inj hstart
    exact Or.inr ⟨heq, by omega⟩

/-- Lines and columns as coordinates of a source.  A negative offset has the first place.
    For every other one, cut at the end of the source, the line is one more than the number
    of line feeds in front of it, and the column one more than the number of characters
    behind the last of them; the line table has an entry for the line, and from this entry
    the column leads back to the offset.  Every line number lies between the first and the
    last line.  Up to the end of the source a greater offset has a later place, so two
    offsets never share a place. -/
theorem offsets_have_coordinates :
    let text := source.toList
    (∀ offset : Int, offset < 0 → ofOffset source offset = ⟨1, 1⟩) ∧
    (∀ offset : Int, 0 ≤ offset →
      let place := min offset.toNat text.length
      let position := ofOffset source offset
      position.line = 1 + (text.take place).count '\n' ∧
      position.column = 1 + (lastLine (text.take place)).length ∧
      ∃ start, (lineStarts text)[position.line - 1]? = some start ∧
        start + (position.column - 1) = place) ∧
    (∀ offset : Int, 1 ≤ (ofOffset source offset).line ∧
      (ofOffset source offset).line ≤ 1 + text.count '\n') ∧
    (∀ i j : Nat, i < j → j ≤ text.length → (ofOffset source i).Before (ofOffset source j)) ∧
    ∀ i j : Nat, i ≤ text.length → j ≤ text.length →
      ofOffset source i = ofOffset source j → i = j := by
  intro text
  refine ⟨fun offset h => ofOffset_of_neg source h, ?_, line_bounds source,
    fun i j h hj => before_of_lt source h hj, ?_⟩
  · intro offset h place position
    have hle : place ≤ text.length := Nat.min_le_right _ _
    have hposition : position = ofOffset source place := by
      rw [ofOffset_natCast hle]
      exact ofOffset_eq source h rfl
    have hcounts := ofOffset_natCast hle
    rw [hposition]
    exact ⟨by rw [hcounts], by rw [hcounts], lineStart_add_column source hle⟩
  · intro i j hi hj heq
    -- One of two places that differ is before the other, and no place is before itself.
    by_contra hne
    rcases Nat.lt_or_gt_of_ne hne with hlt | hlt
    · have hbefore := before_of_lt source hlt hj
      rw [heq, Before] at hbefore
      omega
    · have hbefore := before_of_lt source hlt hi
      rw [heq, Before] at hbefore
      omega

/-- An offset past the end of a source with empty lines leads back to the end, which comes
    after the line feed in front of it. -/
theorem offsets_have_coordinates_emptyLines :
    (∃ start, (lineStarts "a\n\nb\n".toList)[(ofOffset "a\n\nb\n" 9).line - 1]? = some start ∧
      start + ((ofOffset "a\n\nb\n" 9).column - 1) = 5) ∧
    (ofOffset "a\n\nb\n" 4).Before (ofOffset "a\n\nb\n" 5) := by
  obtain ⟨-, hcount, -, hbefore, -⟩ := offsets_have_coordinates "a\n\nb\n"
  exact ⟨(hcount 9 (by decide)).2.2, hbefore 4 5 (by decide) (by decide)⟩

end Coordinates

end Position

end EsFeatures.Text
