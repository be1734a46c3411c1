/-
  EsFeatures.Proofs.ReportLines

  The lines of short and full reports.  Both reports list the findings that the JSON report
  lists, in the same order: a short one with a line for each, a full one with a record of
  two or three lines for each and an empty line between two records.  A snippet is brought
  onto one line, so whatever it holds it never makes a line more or less.  And whatever a
  report prints goes to its copy as it goes to the output.
-/
import EsFeatures.Proofs.Coordinates
import EsFeatures.Proofs.Lossless

namespace EsFeatures

namespace Text

/-! ## Lines of a text -/

/-- The lines of a text, each with a line feed behind it; nothing when the last one has
    none. -/
def lines? (text : String) : Option (List String) :=
  let pieces := text.toList.splitOn '\n'
  if pieces.getLast? = some [] then some (pieces.dropLast.map String.ofList) else none

/-- The text of lines, each with a line feed behind it. -/
def ofLines (lines : List String) : String :=
  String.join (lines.map (· ++ "\n"))

/-- `IsLine text`: there is no line feed in a text. -/
def IsLine (text : String) : Prop :=
  '\n' ∉ text.toList

instance (text : String) : Decidable (IsLine text) :=
  inferInstanceAs (Decidable ('\n' ∉ text.toList))

theorem ofLines_nil : ofLines [] = "" := rfl

theorem ofLines_cons (line : String) (lines : List String) :
    ofLines (line :: lines) = line ++ "\n" ++ ofLines lines := by
  rw [ofLines, List.map_cons, String.join_cons, ofLines]

theorem ofLines_append (front back : List String) :
    ofLines (front ++ back) = ofLines front ++ ofLines back := by
  rw [ofLines, List.map_append, String.join_append, ofLines, ofLines]

/-- Lines can be read off their text. -/
theorem lines?_ofLines {lines : List String} (h : ∀ line ∈ lines, IsLine line) :
    lines? (ofLines lines) = some lines := by
  have htext : (ofLines lines).toList = ['\n'].intercalate (lines.map String.toList ++ [[]]) := by
    clear h
    induction lines with
    | nil => rfl
    | cons line lines ih =>
      have hne : lines.map String.toList ++ [[]] ≠ [] := List.append_ne_nil_of_right_ne_nil _ (by simp)
      rw [ofLines_cons, String.toList_append, String.toList_append, ih, List.map_cons,
        List.cons_append, List.intercalate_cons_of_ne_nil hne]
      rfl
  have hpieces : (ofLines lines).toList.splitOn '\n' = lines.map String.toList ++ [[]] := by
    rw [htext]
    apply List.splitOn_intercalate
    · intro piece hpiece
      obtain hpiece | hpiece := List.mem_append.mp hpiece
      · obtain ⟨line, hline, rfl⟩ := List.mem_map.mp hpiece
        exact h line hline
      · rw [List.mem_singleton.mp hpiece]
        exact List.not_mem_nil
    · simp
  have hlines : (lines.map String.toList).map String.ofList = lines := by
    rw [List.map_map]
    exact List.map_id'' (fun line => String.ofList_toList) lines
  simp only [lines?, hpieces, List.getLast?_concat, List.dropLast_concat, hlines, if_true]

section IsLine

variable {a b : String}

theorem isLine_append : IsLine (a ++ b) ↔ IsLine a ∧ IsLine b := by
  rw [IsLine, String.toList_append, List.mem_append, not_or]
  rfl

theorem IsLine.append (ha : IsLine a) (hb : IsLine b) : IsLine (a ++ b) :=
  isLine_append.mpr ⟨ha, hb⟩

theorem isLine_natToString (n : Nat) : IsLine (toString n) := by
  show '\n' ∉ n.repr.toList
  rw [Nat.toList_repr]
  intro hmem
  have hdigit := Nat.isDigit_of_mem_toDigits (by decide) (by decide) hmem
  exact absurd hdigit (by decide)

theorem isLine_intToString (value : Int) : IsLine (toString value) := by
  rw [IsLine, Json.toList_toString_int]
  intro hmem
  have hdigits {n : Nat} : '\n' ∉ Nat.toDigits 10 n := by
    have hline := isLine_natToString n
    rwa [IsLine, show toString n = n.repr from rfl, Nat.toList_repr] at hline
  split at hmem
  · exact hdigits hmem
  · obtain hsign | hmem := List.mem_cons.mp hmem
    · exact absurd hsign (by decide)
    · exact hdigits hmem

end IsLine

/-- A snippet is shown on one line, whatever it holds. -/
theorem isLine_oneLine (text : String) (width : Int) : IsLine (oneLine text width) := by
  -- Line feeds are gone before the text is cut, and the three dots bring none back.
  have hshown (chars : List Char) : '\n' ∉ showLineFeeds chars := by
    intro hmem
    obtain ⟨c, -, hc⟩ := List.mem_flatMap.mp hmem
    split at hc
    · revert hc
      decide
    · exact absurd (List.mem_singleton.mp hc).symm ‹_›
  rw [IsLine, oneLine, String.toList_ofList, abridge]
  split
  · intro hmem
    obtain hmem | hmem := List.mem_append.mp hmem
    · exact hshown _ (List.mem_of_mem_take (List.mem_of_mem_drop hmem))
    · revert hmem
      decide
  · exact hshown _

end Text

namespace Report

open Text (Position IsLine lines? ofLines)

/-! ## The end of a report -/

/-- What ends with a line feed loses all of them. -/
theorem trimLineFeeds_append {text : String} (h : text.toList.getLast? ≠ some '\n') (k : Nat) :
    trimLineFeeds (text ++ String.ofList (List.replicate k '\n')) = text := by
  have hfeeds : ∀ c ∈ List.replicate k '\n', (c == '\n') = true := by
    intro c hc
    rw [List.eq_of_mem_replicate hc]
    rfl
  -- Seen from its end, the text begins with something else.
  have hrest : text.toList.reverse.dropWhile (· == '\n') = text.toList.reverse := by
    rw [← List.head?_reverse] at h
    cases hreverse : text.toList.reverse with
    | nil => rfl
    | cons c rest =>
      rw [hreverse] at h
      have hc : (c == '\n') = false := beq_false_of_ne fun hc => h (by rw [hc]; rfl)
      rw [List.dropWhile_cons, hc]
      rfl
  rw [trimLineFeeds, String.toList_append, String.toList_ofList, List.reverse_append,
    List.reverse_replicate, List.dropWhile_append_of_pos hfeeds, hrest, List.reverse_reverse,
    String.ofList_toList]

/-- `EndsInText lines`: the last of some lines is not empty. -/
def EndsInText (lines : List String) : Prop :=
  ∃ front last, lines = front ++ [last] ∧ IsLine last ∧ last ≠ ""

/-- The line feeds behind a report are cut down to the one that ends its last line. -/
theorem trimLineFeeds_ofLines {lines : List String} (h : EndsInText lines) (k : Nat) :
    trimLineFeeds (ofLines lines ++ String.ofList (List.replicate k '\n')) ++ "\n" =
      ofLines lines := by
  obtain ⟨front, last, rfl, hline, hne⟩ := h
  have hlines : ofLines (front ++ [last]) = ofLines front ++ last ++ "\n" := by
    rw [Text.ofLines_append, Text.ofLines_cons, Text.ofLines_nil, String.append_empty,
      String.append_assoc]
  have hfeeds : "\n" ++ String.ofList (List.replicate k '\n') =
      String.ofList (List.replicate (k + 1) '\n') := by
    rw [List.replicate_succ]
    exact String.ofList_append.symm
  have hlast : (ofLines front ++ last).toList.getLast? ≠ some '\n' := by
    have hchars : last.toList ≠ [] := fun h => hne (String.toList_eq_nil_iff.mp h)
    rw [String.toList_append, List.getLast?_append, List.getLast?_eq_some_getLast hchars,
      Option.some_or]
    intro hfeed
    exact hline (Option.some.inj hfeed ▸ List.getLast_mem hchars)
  rw [hlines, String.append_assoc, hfeeds, trimLineFeeds_append hlast]

/-! ## Rows -/

/-- A finding as reports list it, with the path of its file and its place there. -/
structure Row where
  path : String
  finding : Finding
  position : Position
deriving Repr, DecidableEq

/-- The findings that are listed for a file. -/
def FileReport.rows : FileReport → List Row
  | .failed _ _ => []
  | .scanned path findings => findings.map fun found => ⟨path, found.1, found.2⟩

/-- A qualifier between two marks; nothing for one that is missing or empty. -/
def qualifierWords (opening closing : String) : Scalar → String
  | .null => ""
  | .text words => if words = "" then "" else opening ++ words ++ closing
  | .flag value => if value then opening ++ "True" ++ closing else ""
  | .integer value => if value = 0 then "" else opening ++ toString value ++ closing

namespace Row

/-- The place of a finding. -/
def location (row : Row) : String :=
  s!"{row.path}:{row.position.line}:{row.position.column}"

/-- The line of a finding in a short report. -/
def shortLine (row : Row) : String :=
  row.location ++ "  " ++ row.finding.feature.name ++
    qualifierWords " (" ")" row.finding.qualifier

/-- The line of a full report that says what was found. -/
def labelLine (row : Row) : String :=
  "  " ++ row.finding.feature.name ++ " - " ++ row.finding.label ++
    qualifierWords " [" "]" row.finding.qualifier

/-- The line with the snippet, if there is one. -/
def snippetLines (row : Row) : List String :=
  if row.finding.snippet = "" then []
  else ["  | " ++ Text.oneLine row.finding.snippet snippetWidth]

/-- The record of a finding in a full report. -/
def fullLines (row : Row) : List String :=
  row.location :: row.labelLine :: row.snippetLines

/-- The row of an entry. -/
def ofEntry (e : Entry) : Row :=
  ⟨e.file.path, e.finding, e.position⟩

end Row

/-- `Listable results`: every file was scanned, and its path and the labels and qualifiers of
    its findings are single lines. -/
structure Listable (results : List FileResult) : Prop where
  scanned : ∀ file ∈ results, file.error = none
  path : ∀ file ∈ results, IsLine file.path
  label : ∀ file ∈ results, ∀ finding ∈ file.findings, IsLine finding.label
  qualifier : ∀ file ∈ results, ∀ finding ∈ file.findings, ∀ words,
    finding.qualifier = .text words → IsLine words

/-- `row.Printable`: the path, label and qualifier of a row are single lines. -/
structure Row.Printable (row : Row) : Prop where
  path : IsLine row.path
  label : IsLine row.finding.label
  qualifier : ∀ words, row.finding.qualifier = .text words → IsLine words

section Rows

variable {results : List FileResult}

theorem rows_ofResult {file : FileResult} (h : file.error = none) :
    (FileReport.ofResult file).rows = file.findings.map fun finding => .ofEntry ⟨file, finding⟩ := by
  rw [FileReport.ofResult, h, FileReport.rows, List.map_map]
  rfl

/-- The rows of a JSON report are the entries of the other reports. -/
theorem rows_eq_map_entries (h : ∀ file ∈ results, file.error = none) :
    (results.map FileReport.ofResult).flatMap FileReport.rows =
      (entries results).map .ofEntry := by
  rw [List.flatMap_map, entries, List.map_flatMap]
  apply List.flatMap_congr
  intro file hfile
  rw [rows_ofResult (h file hfile), List.map_map]
  rfl

theorem length_filter_rows (h : ∀ file ∈ results, file.error = none) :
    ((results.map FileReport.ofResult).filter fun file => !file.rows.isEmpty).length =
      (results.filter fun file => !file.findings.isEmpty).length := by
  rw [List.filter_map, List.length_map]
  congr 1
  apply List.filter_congr
  intro file hfile
  show (!(FileReport.ofResult file).rows.isEmpty) = _
  rw [rows_ofResult (h file hfile), List.isEmpty_map]

theorem qualifierText_eq (opening closing : String) (qualifier : Scalar) :
    qualifierText opening closing qualifier = qualifierWords opening closing qualifier := by
  cases qualifier with
  | null => rfl
  | flag value => cases value <;> rfl
  | integer value =>
    by_cases h : value = 0 <;> simp [qualifierText, qualifierWords, Scalar.isSet, Scalar.display, h]
  | text words =>
    by_cases h : words = "" <;> simp [qualifierText, qualifierWords, Scalar.isSet, Scalar.display, h]

theorem shortRecord_plain (e : Entry) :
    shortRecord .plain e = ofLines [(Row.ofEntry e).shortLine] := by
  simp only [shortRecord, Palette.plain, String.empty_append, String.append_empty, qualifierText_eq,
    Text.ofLines_cons, Text.ofLines_nil]
  rfl

theorem snippetLine_plain (e : Entry) :
    snippetLine .plain e.finding.snippet = ofLines (Row.ofEntry e).snippetLines := by
  rw [snippetLine, Row.snippetLines]
  show _ = ofLines (if e.finding.snippet = "" then [] else _)
  by_cases h : e.finding.snippet = ""
  · rw [if_pos h, h]
    rfl
  · have hempty : ¬e.finding.snippet.isEmpty = true := fun hempty => h (String.isEmpty_iff.mp hempty)
    rw [if_neg h, if_neg hempty, Text.ofLines_cons, Text.ofLines_nil]
    simp only [Palette.plain, String.append_empty]
    rfl

theorem fullRecord_plain (e : Entry) :
    fullRecord .plain e = ofLines ((Row.ofEntry e).fullLines ++ [""]) := by
  rw [Text.ofLines_append, Row.fullLines, Text.ofLines_cons, Text.ofLines_cons, ← snippetLine_plain]
  simp only [fullRecord, Palette.plain, String.empty_append, String.append_empty, qualifierText_eq,
    Text.ofLines_cons, Text.ofLines_nil, String.append_assoc, Row.labelLine]
  rfl

/-- Records with a line behind each of them are records with this line between them, and the
    line once more at the end. -/
theorem flatMap_concat {α β : Type} (record : α → List β) (between : β) {items : List α}
    (h : items ≠ []) :
    (items.flatMap fun item => record item ++ [between]) =
      [between].intercalate (items.map record) ++ [between] := by
  induction items with
  | nil => exact absurd rfl h
  | cons item rest ih =>
    by_cases hrest : rest = []
    · rw [hrest, List.flatMap_cons, List.flatMap_nil, List.append_nil, List.map_singleton,
        List.intercalate_singleton]
    · have hrecords : rest.map record ≠ [] := fun h => hrest (List.map_eq_nil_iff.mp h)
      rw [List.flatMap_cons, ih hrest, List.map_cons, List.intercalate_cons_of_ne_nil hrecords]
      simp only [List.append_assoc]

theorem endsInText_of_forall {lines : List String} (hne : lines ≠ [])
    (h : ∀ line ∈ lines, IsLine line ∧ line ≠ "") : EndsInText lines :=
  ⟨lines.dropLast, lines.getLast hne, (List.dropLast_append_getLast hne).symm,
    h _ (List.getLast_mem hne)⟩

theorem endsInText_append (front : List String) {lines : List String} (h : EndsInText lines) :
    EndsInText (front ++ lines) := by
  obtain ⟨middle, last, rfl, hlast⟩ := h
  exact ⟨front ++ middle, last, (List.append_assoc _ _ _).symm, hlast⟩

theorem endsInText_intercalate {records : List (List String)} (hne : records ≠ [])
    (h : ∀ record ∈ records, EndsInText record) (between : List String) :
    EndsInText (between.intercalate records) := by
  induction records with
  | nil => exact absurd rfl hne
  | cons record rest ih =>
    rw [List.forall_mem_cons] at h
    by_cases hrest : rest = []
    · rw [hrest, List.intercalate_singleton]
      exact h.1
    · rw [List.intercalate_cons_of_ne_nil hrest]
      exact endsInText_append _ (ih hrest h.2)

end Rows

section Lines

variable {results : List FileResult}

theorem isLine_featureName (feature : Feature) : IsLine feature.name := by
  cases feature <;> decide

theorem isLine_qualifierWords {opening closing : String} (hopening : IsLine opening)
    (hclosing : IsLine closing) {qualifier : Scalar}
    (h : ∀ words, qualifier = .text words → IsLine words) :
    IsLine (qualifierWords opening closing qualifier) := by
  have hempty : IsLine "" := List.not_mem_nil
  cases qualifier with
  | null => exact hempty
  | flag value =>
    cases value with
    | false => exact hempty
    | true => exact (hopening.append (by decide)).append hclosing
  | integer value =>
    rw [qualifierWords]
    split
    · exact hempty
    · exact (hopening.append (Text.isLine_intToString value)).append hclosing
  | text words =>
    rw [qualifierWords]
    split
    · exact hempty
    · exact (hopening.append (h words rfl)).append hclosing

theorem Listable.printable (h : Listable results) {e : Entry} (he : e ∈ entries results) :
    (Row.ofEntry e).Printable := by
  obtain ⟨file, hfile, he⟩ := List.mem_flatMap.mp he
  obtain ⟨finding, hfinding, rfl⟩ := List.mem_map.mp he
  exact ⟨h.path file hfile, h.label file hfile finding hfinding,
    h.qualifier file hfile finding hfinding⟩

namespace Row

variable {row : Row}

theorem isLine_location (h : row.Printable) : IsLine row.location := by
  have hcolon : IsLine ":" := by decide
  exact ((((h.path.append hcolon).append (Text.isLine_natToString _)).append hcolon).append
    (Text.isLine_natToString _))

theorem isLine_shortLine (h : row.Printable) : IsLine row.shortLine :=
  (((isLine_location h).append (by decide)).append (isLine_featureName _)).append
    (isLine_qualifierWords (by decide) (by decide) h.qualifier)

theorem isLine_labelLine (h : row.Printable) : IsLine row.labelLine := by
  have hblanks : IsLine "  " := by decide
  exact (((hblanks.append (isLine_featureName _)).append (by decide)).append h.label).append
    (isLine_qualifierWords (by decide) (by decide) h.qualifier)

theorem isLine_of_mem_snippetLines {line : String} (h : line ∈ row.snippetLines) :
    IsLine line := by
  rw [snippetLines] at h
  split at h
  · cases h
  · rw [List.mem_singleton.mp h]
    have hmark : IsLine "  | " := by decide
    exact hmark.append (Text.isLine_oneLine _ _)

theorem isLine_of_mem_fullLines (h : row.Printable) {line : String} (hline : line ∈ row.fullLines) :
    IsLine line := by
  obtain rfl | hline := List.mem_cons.mp hline
  · exact isLine_location h
  · obtain rfl | hline := List.mem_cons.mp hline
    · exact isLine_labelLine h
    · exact isLine_of_mem_snippetLines hline

theorem shortLine_ne_empty (row : Row) : row.shortLine ≠ "" := by
  simp [shortLine, String.append_eq_empty_iff]

theorem ne_empty_of_mem_fullLines {line : String} (h : line ∈ row.fullLines) : line ≠ "" := by
  obtain rfl | h := List.mem_cons.mp h
  · simp [location, String.append_eq_empty_iff]
  · obtain rfl | h := List.mem_cons.mp h
    · simp [labelLine, String.append_eq_empty_iff]
    · rw [snippetLines] at h
      split at h
      · cases h
      · rw [List.mem_singleton.mp h]
        simp [String.append_eq_empty_iff]

end Row

/-- The line over the findings. -/
def header (features files : Nat) : String :=
  s!"Found {features} ES6+ feature(s) in {files} file(s):"

/-- The lines in front of the findings. -/
def heading (files : List FileReport) : List String :=
  ["", header (files.flatMap FileReport.rows).length
    (files.filter fun file => !file.rows.isEmpty).length, ""]

theorem isLine_header (features files : Nat) : IsLine (header features files) := by
  have hfound : IsLine "Found " := by decide
  exact (((hfound.append (Text.isLine_natToString _)).append (by decide)).append
    (Text.isLine_natToString _)).append (by decide)

theorem textMessages_eq (record : Entry → String) (hfound : entries results ≠ []) :
    textMessages record results =
      ["\n" ++ header (entries results).length
          (results.filter fun file => !file.findings.isEmpty).length ++ "\n",
        trimLineFeeds (String.join ((entries results).map record))] := by
  have hheader (features files : Nat) :
      s!"\nFound {features} ES6+ feature(s) in {files} file(s):\n" =
        "\n" ++ header features files ++ "\n" := by
    have hfront : "\nFound " = "\n" ++ "Found " := rfl
    have hback : " file(s):\n" = " file(s):" ++ "\n" := rfl
    rw [hfront, hback]
    simp only [header, String.append_assoc]
    rfl
  rw [textMessages]
  split
  · contradiction
  · rw [← hheader]

/-- The lines of a short or full report that has something to list, given the lines of its
    records.  The line feeds behind the last record do not count. -/
theorem lines?_textMessages {record : Entry → String} {lines : List String}
    (hfound : entries results ≠ []) (hlines : ∀ line ∈ lines, IsLine line)
    (hends : EndsInText lines) (k : Nat)
    (hrecords : String.join ((entries results).map record) =
      ofLines lines ++ String.ofList (List.replicate k '\n')) :
    lines? (ofLines (textMessages record results)) =
      some ("" :: header (entries results).length
        (results.filter fun file => !file.findings.isEmpty).length :: "" :: lines) := by
  have htext : ofLines (textMessages record results) =
      ofLines ("" :: header (entries results).length
        (results.filter fun file => !file.findings.isEmpty).length :: "" :: lines) := by
    rw [textMessages_eq record hfound, hrecords, Text.ofLines_cons, Text.ofLines_cons,
      trimLineFeeds_ofLines hends k]
    simp only [Text.ofLines_cons, Text.ofLines_nil, String.empty_append, String.append_empty,
      String.append_assoc]
  have hempty : IsLine "" := List.not_mem_nil
  rw [htext]
  apply Text.lines?_ofLines
  rw [List.forall_mem_cons, List.forall_mem_cons, List.forall_mem_cons]
  exact ⟨hempty, isLine_header _ _, hempty, hlines⟩

/-- The text of the records of all findings, each given by its lines. -/
theorem join_map_ofLines (record : Entry → List String) (found : List Entry) :
    String.join (found.map fun e => ofLines (record e)) = ofLines (found.flatMap record) := by
  induction found with
  | nil => rfl
  | cons e rest ih =>
    rw [List.map_cons, String.join_cons, ih, List.flatMap_cons, Text.ofLines_append]

/-- The lines of a short report: one for each finding. -/
theorem lines?_short (h : Listable results) (hfound : entries results ≠ []) :
    lines? (text .plain .short results) =
      some ("" :: header (entries results).length
        (results.filter fun file => !file.findings.isEmpty).length :: "" ::
        ((entries results).map Row.ofEntry).map Row.shortLine) := by
  rw [List.map_map]
  have hlines : ∀ line ∈ (entries results).map (Row.shortLine ∘ Row.ofEntry),
      IsLine line ∧ line ≠ "" := by
    intro line hline
    obtain ⟨e, he, rfl⟩ := List.mem_map.mp hline
    exact ⟨Row.isLine_shortLine (h.printable he), Row.shortLine_ne_empty _⟩
  have hends : EndsInText ((entries results).map (Row.shortLine ∘ Row.ofEntry)) :=
    endsInText_of_forall (fun hnil => hfound (List.map_eq_nil_iff.mp hnil)) hlines
  have hrecords : String.join ((entries results).map (shortRecord .plain)) =
      ofLines ((entries results).map (Row.shortLine ∘ Row.ofEntry)) ++
        String.ofList (List.replicate 0 '\n') := by
    have hrecord : shortRecord .plain = fun e => ofLines [(Row.ofEntry e).shortLine] :=
      funext shortRecord_plain
    rw [hrecord, join_map_ofLines, ← List.map_eq_flatMap]
    exact String.append_empty.symm
  exact lines?_textMessages hfound (fun line hline => (hlines line hline).1) hends 0 hrecords

/-- The lines of a full report: a record for each finding, with an empty line between two. -/
theorem lines?_full (h : Listable results) (hfound : entries results ≠ []) :
    lines? (text .plain .full results) =
      some ("" :: header (entries results).length
        (results.filter fun file => !file.findings.isEmpty).length :: "" ::
        [""].intercalate (((entries results).map Row.ofEntry).map Row.fullLines)) := by
  rw [List.map_map]
  have hconcat := flatMap_concat (Row.fullLines ∘ Row.ofEntry) "" hfound
  have hlines : ∀ line ∈ [""].intercalate ((entries results).map (Row.fullLines ∘ Row.ofEntry)),
      IsLine line := by
    intro line hline
    have hmem := List.mem_append_left [""] hline
    rw [← hconcat] at hmem
    obtain ⟨e, he, hmem⟩ := List.mem_flatMap.mp hmem
    obtain hmem | hmem := List.mem_append.mp hmem
    · exact Row.isLine_of_mem_fullLines (h.printable he) hmem
    · rw [List.mem_singleton.mp hmem]
      exact List.not_mem_nil
  have hends : EndsInText
      ([""].intercalate ((entries results).map (Row.fullLines ∘ Row.ofEntry))) := by
    apply endsInText_intercalate (fun hnil => hfound (List.map_eq_nil_iff.mp hnil))
    intro record hrecord
    obtain ⟨e, he, rfl⟩ := List.mem_map.mp hrecord
    apply endsInText_of_forall (List.cons_ne_nil _ _)
    intro line hline
    exact ⟨Row.isLine_of_mem_fullLines (h.printable he) hline, Row.ne_empty_of_mem_fullLines hline⟩
  -- The empty line behind the last record is the line feed that is cut.
  have hrecords : String.join ((entries results).map (fullRecord .plain)) =
      ofLines ([""].intercalate ((entries results).map (Row.fullLines ∘ Row.ofEntry))) ++
        String.ofList (List.replicate 1 '\n') := by
    have hrecord : fullRecord .plain = fun e => ofLines ((Row.ofEntry e).fullLines ++ [""]) :=
      funext fullRecord_plain
    rw [hrecord, join_map_ofLines]
    exact (congrArg ofLines hconcat).trans (Text.ofLines_append _ _)
  exact lines?_textMessages hfound hlines hends 1 hrecords

end Lines

/-! ## Printing -/

/-- Messages go to the output and to the copy alike. -/
theorem foldl_print (messages : List String) (streams : Streams) :
    messages.foldl Streams.print streams =
      { out := streams.out ++ ofLines messages
        copy := streams.copy.map (· ++ ofLines messages) } := by
  induction messages generalizing streams with
  | nil =>
    rw [List.foldl_nil, Text.ofLines_nil]
    simp only [String.append_empty, Option.map_id']
  | cons message rest ih =>
    rw [List.foldl_cons, ih, Text.ofLines_cons]
    simp only [Streams.print, Option.map_map, Function.comp_def, String.append_assoc]

/-- Short and full reports without colours list what the JSON report lists.  When all files
    were scanned, something was found in them, and paths, labels and qualifiers are single
    lines, the JSON report can be read, and with the findings in it, in their order, the
    short report has one line for each behind the heading, and the full report a record for
    each: where it is, what it is and, unless the snippet is empty, one line of the snippet,
    with one empty line between two records.  In every mode all that is printed to the output
    is printed to the copy. -/
theorem text_reports_list_json_findings {results : List FileResult} (h : Listable results)
    (hfound : ∃ file ∈ results, file.findings ≠ []) (p : Palette) :
    (∃ files, readReport (text p .json results) = some files ∧
      lines? (text .plain .short results) =
        some (heading files ++ (files.flatMap FileReport.rows).map Row.shortLine) ∧
      lines? (text .plain .full results) =
        some (heading files ++
          [""].intercalate ((files.flatMap FileReport.rows).map Row.fullLines))) ∧
    ∀ (mode : ReportMode) (streams : Streams),
      (print p mode results streams).out = streams.out ++ text p mode results ∧
      (print p mode results streams).copy = streams.copy.map (· ++ text p mode results) := by
  have hentries : entries results ≠ [] := by
    obtain ⟨file, hfile, hfindings⟩ := hfound
    obtain ⟨finding, hfinding⟩ := List.exists_mem_of_ne_nil _ hfindings
    exact List.ne_nil_of_mem
      (List.mem_flatMap.mpr ⟨file, hfile, List.mem_map.mpr ⟨finding, hfinding, rfl⟩⟩)
  refine ⟨⟨results.map .ofResult, readReport_text p results, ?_⟩, fun mode streams => ?_⟩
  · rw [heading, rows_eq_map_entries h.scanned, length_filter_rows h.scanned, List.length_map]
    exact ⟨lines?_short h hentries, lines?_full h hentries⟩
  · rw [print, foldl_print]
    exact ⟨rfl, rfl⟩

/-! ### Three findings in two files -/

/-- A finding of an arrow function. -/
def arrowFinding (qualifier : Scalar) (snippet : String) (offset : Int) : Finding :=
  { feature := .arrowFunction, label := "Arrow", qualifier, snippet, offset }

/-- A file with a snippet of two lines and one without text, a file without findings, and a
    file whose snippet is a line end. -/
def snippetResults : List FileResult :=
  [{ path := "a.js"
     source := "\nx => \x7b\r\n\x7d"
     findings := [arrowFinding .null "x => \x7b\r\n\x7d" 1, arrowFinding (.text "async") "" 3] },
   { path := "b.js" },
   { path := "c.js", findings := [arrowFinding (.text "") "\n" (-1)] }]

theorem listable_snippetResults : Listable snippetResults where
  scanned := by decide
  path := by decide
  label := by decide
  qualifier := by
    intro file hfile finding hfinding words hwords
    have hqualifiers : ∀ file ∈ snippetResults, ∀ finding ∈ file.findings,
        finding.qualifier ∈ [.null, .text "async", .text ""] := by decide
    have hmem := hqualifiers file hfile finding hfinding
    rw [hwords] at hmem
    obtain rfl | rfl : words = "async" ∨ words = "" := by simpa using hmem
    · decide
    · decide

/-- The rows of these findings, with their places. -/
theorem rows_snippetResults :
    (snippetResults.map FileReport.ofResult).flatMap FileReport.rows =
      [⟨"a.js", arrowFinding .null "x => \x7b\r\n\x7d" 1, ⟨2, 1⟩⟩,
       ⟨"a.js", arrowFinding (.text "async") "" 3, ⟨2, 3⟩⟩,
       ⟨"c.js", arrowFinding (.text "") "\n" (-1), ⟨1, 1⟩⟩] := by
  have hfirst : Position.ofOffset "\nx => \x7b\r\n\x7d" 1 = ⟨2, 1⟩ :=
    (Position.ofOffset_eq _ (by decide) rfl).trans (by decide)
  have hsecond : Position.ofOffset "\nx => \x7b\r\n\x7d" 3 = ⟨2, 3⟩ :=
    (Position.ofOffset_eq _ (by decide) rfl).trans (by decide)
  rw [← hfirst, ← hsecond]
  rfl

/-- The line ends in snippets are shown, and an empty snippet or qualifier leaves nothing. -/
theorem text_reports_list_json_findings_snippets :
    lines? (text .plain .short snippetResults) = some
      ["", "Found 3 ES6+ feature(s) in 2 file(s):", "",
        "a.js:2:1  ArrowFunctionExpression",
        "a.js:2:3  ArrowFunctionExpression (async)",
        "c.js:1:1  ArrowFunctionExpression"] ∧
    lines? (text .plain .full snippetResults) = some
      ["", "Found 3 ES6+ feature(s) in 2 file(s):", "",
        "a.js:2:1", "  ArrowFunctionExpression - Arrow", "  | x => \x7b\\n\x7d", "",
        "a.js:2:3", "  ArrowFunctionExpression - Arrow [async]", "",
        "c.js:1:1", "  ArrowFunctionExpression - Arrow", "  | \\n"] ∧
    (print .plain .full snippetResults { copy := some "" }).copy =
      some (print .plain .full snippetResults {}).out := by
  obtain ⟨⟨files, hread, hshort, hfull⟩, hprint⟩ :=
    text_reports_list_json_findings listable_snippetResults ⟨_, List.mem_cons_self, by decide⟩ .plain
  have hfiles : files = snippetResults.map .ofResult := by
    rw [readReport_text] at hread
    exact (Option.some.inj hread).symm
  rw [hfiles, heading, rows_snippetResults] at hshort hfull
  refine ⟨hshort, hfull, ?_⟩
  rw [(hprint .full _).2, (hprint .full _).1]
  rfl

end Report

end EsFeatures
