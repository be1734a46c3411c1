/-
  EsFeatures.Proofs.Lossless

  What a JSON report says can be read back from its text.  `FileReport` is what there is to
  say of a file: its path with its error, or its path with its findings and their places.
  A report is read member by member, by the names of the members alone, and gives exactly
  these back; so reports that say different things have different texts.
-/
import EsFeatures.Proofs.ExitCode
import EsFeatures.Proofs.JsonReader

namespace EsFeatures

open Text (Position)

/-! ## Members of a document -/

namespace Json

/-- The names of an object's members, in order. -/
def names : Json → List String
  | .object members => members.map Prod.fst
  | _ => []

/-- A plain value. -/
def scalar? : Json → Option Scalar
  | .scalar value => some value
  | _ => none

/-- A text. -/
def text? : Json → Option String
  | .scalar (.text value) => some value
  | _ => none

/-- An integer. -/
def integer? : Json → Option Int
  | .scalar (.integer value) => some value
  | _ => none

/-- A number that counts something. -/
def natural? : Json → Option Nat
  | .scalar (.integer value) => if 0 ≤ value then some value.toNat else none
  | _ => none

/-- A list. -/
def list? : Json → Option (List Json)
  | .list items => some items
  | _ => none

end Json

namespace Report

/-! ## What a report says -/

/-- What a report says of a file. -/
inductive FileReport where
  /-- Why the file gave no findings. -/
  | failed (path error : String)
  /-- The findings, each with its line and column. -/
  | scanned (path : String) (findings : List (Finding × Position))
deriving Repr, DecidableEq

/-- What there is to say of a result: its error and nothing else, or its findings. -/
def FileReport.ofResult (file : FileResult) : FileReport :=
  match file.error with
  | some error => .failed file.path error
  | none => .scanned file.path
      (file.findings.map fun finding => (finding, Position.ofOffset file.source finding.offset))

/-- Reads a finding with its place. -/
def readFinding (value : Json) : Option (Finding × Position) := do
  if value.names ≠ ["type", "name", "qualifier", "snippet", "offset", "line", "column"] then none
  let feature ← Feature.ofName? (← (← value.member? "type").text?)
  let label ← (← value.member? "name").text?
  let qualifier ← (← value.member? "qualifier").scalar?
  let snippet ← (← value.member? "snippet").text?
  let offset ← (← value.member? "offset").integer?
  let line ← (← value.member? "line").natural?
  let column ← (← value.member? "column").natural?
  return ({ feature, label, qualifier, snippet, offset }, { line, column })

/-- Reads what is said of a file. -/
def readFile (value : Json) : Option FileReport := do
  let path ← (← value.member? "path").text?
  if value.names = ["path", "error"] then
    let error ← (← value.member? "error").text?
    return .failed path error
  else if value.names = ["path", "findings"] then
    let findings ← (← (← value.member? "findings").list?).mapM readFinding
    return .scanned path findings
  else none

/-- Reads the text of a report, file by file. -/
def readReport (text : String) : Option (List FileReport) := do
  let report ← Json.decode? text
  (← (← report.member? "files").list?).mapM readFile

/-! ## Reading a report back -/

theorem ofName?_name (feature : Feature) : Feature.ofName? feature.name = some feature := by
  cases feature <;> rfl

theorem natural?_natCast (n : Nat) : (Json.scalar (.integer n)).natural? = some n := by
  rw [Json.natural?, if_pos (Int.natCast_nonneg n), Int.toNat_natCast]

theorem readFinding_json (e : Entry) : readFinding e.json = some (e.finding, e.position) := by
  have hnames : e.json.names =
      ["type", "name", "qualifier", "snippet", "offset", "line", "column"] := rfl
  rw [readFinding, if_neg (not_not.mpr hnames)]
  simp only [Entry.json, Json.member?, List.lookup_cons_self, List.lookup_cons, String.reduceBEq,
    Json.text?, Json.scalar?, Json.integer?, natural?_natCast, ofName?_name, Option.bind_eq_bind,
    Option.bind_some, Option.pure_def]

/-- Items that are read back one by one are read back together. -/
theorem mapM_map_eq_some {α β γ : Type} {write : α → β} {read : β → Option γ} {said : α → γ}
    (h : ∀ a, read (write a) = some (said a)) (items : List α) :
    (items.map write).mapM read = some (items.map said) := by
  induction items with
  | nil => rfl
  | cons a items ih =>
    rw [List.map_cons, List.mapM_cons, h, ih]
    rfl

theorem readFile_fileJson (file : FileResult) :
    readFile (fileJson file) = some (.ofResult file) := by
  cases herror : file.error with
  | some error =>
    simp only [readFile, fileJson, FileReport.ofResult, herror, Json.member?, Json.names, Json.text?,
      List.lookup_cons_self, List.lookup_cons, String.reduceBEq, List.map_cons, List.map_nil,
      ↓reduceIte, Option.bind_eq_bind, Option.bind_some, Option.pure_def]
  | none =>
    have hfindings : (file.findings.map fun finding => Entry.json ⟨file, finding⟩).mapM readFinding =
        some (file.findings.map fun finding =>
          (finding, Position.ofOffset file.source finding.offset)) :=
      mapM_map_eq_some (fun finding => readFinding_json ⟨file, finding⟩) file.findings
    simp only [readFile, fileJson, FileReport.ofResult, herror, Json.member?, Json.names, Json.text?,
      Json.list?, List.lookup_cons_self, List.lookup_cons, String.reduceBEq, List.map_cons,
      List.map_nil, List.cons.injEq, String.reduceEq, and_true, and_false, ↓reduceIte,
      Option.bind_eq_bind, Option.bind_some, Option.pure_def, hfindings]

/-- The text of a JSON report holds the value that the report was made of. -/
theorem decode?_text (p : Palette) (results : List FileResult) :
    Json.decode? (text p .json results) = some (json results) := by
  have htext : text p .json results = (json results).pretty ++ "\n" := by
    simp only [text, messages, List.map_cons, List.map_nil, String.join_cons, String.join_nil,
      String.append_empty]
  rw [htext, Json.decode?_pretty]

theorem readReport_text (p : Palette) (results : List FileResult) :
    readReport (text p .json results) = some (results.map .ofResult) := by
  have hfiles := mapM_map_eq_some readFile_fileJson results
  rw [readReport, decode?_text]
  simp only [member?_files, Json.list?, hfiles, Option.bind_eq_bind, Option.bind_some]

/-- A JSON report is lossless.  Read as a document, and then by the names of its members,
    its text gives for each result, in order, the path with the error and nothing else, or
    the path with all findings and the line and column of each; so results of which there
    are different things to say have different texts. -/
theorem json_report_is_lossless (p : Palette) (results : List FileResult) :
    readReport (text p .json results) = some (results.map .ofResult) ∧
    ∀ (p' : Palette) (results' : List FileResult),
      results'.map FileReport.ofResult ≠ results.map .ofResult →
      text p' .json results' ≠ text p .json results := by
  refine ⟨readReport_text p results, fun p' results' hsaid htext => hsaid ?_⟩
  have hread := readReport_text p' results'
  rw [htext, readReport_text p results] at hread
  exact (Option.some.inj hread).symm

/-! ### Two findings that differ in their qualifiers -/

/-- A result with a single finding, of unknown place, with a text that has to be escaped. -/
def resultWith (qualifier : Scalar) : FileResult :=
  { path := "a\"b.js"
    findings := [{ feature := .arrowFunction, label := "", qualifier, snippet := "\n\\", offset := -1 }] }

/-- A qualifier that is missing is not taken for the text that stands for it. -/
theorem json_report_is_lossless_missingQualifier :
    readReport (text .plain .json [resultWith .null]) = some [.ofResult (resultWith .null)] ∧
    text .colored .json [resultWith (.text "null")] ≠ text .plain .json [resultWith .null] :=
  ⟨(json_report_is_lossless .plain [resultWith .null]).1,
    (json_report_is_lossless .plain [resultWith .null]).2 .colored _ (by decide)⟩

end Report

end EsFeatures
