/-
  EsFeatures.Proofs.ExitCode

  The exit code of a scan.  A file either fails, because it has no source or its source is
  refused, or it gives a list of findings.  The results of a list of files keep the two
  apart, every report counts the same findings in them, and the exit code asks first for
  a failure and then for a finding.  So the code depends on the files and on the options
  of the detection, and on nothing else that a job says.
-/
import EsFeatures.Proofs.Directories
import EsFeatures.Proofs.ParserCheck
import EsFeatures.Proofs.Windowing
import EsFeatures.Scan.Basic
import EsFeatures.Script.Grammar
import Mathlib.Algebra.GroupWithZero.Nat

namespace EsFeatures

/-! ## Findings in a report -/

namespace Json

/-- The member of an object with the given name. -/
def member? (name : String) : Json → Option Json
  | .object members => members.lookup name
  | _ => none

/-- The items of a list. -/
def items : Json → List Json
  | .list items => items
  | _ => []

end Json

namespace Report

/-- The findings that a JSON report lists, file by file. -/
def listed (report : Json) : List Json :=
  ((report.member? "files").elim [] Json.items).flatMap fun file =>
    (file.member? "findings").elim [] Json.items

variable (results : List FileResult)

theorem total_eq_sum : total results = (results.map fun file => file.findings.length).sum := by
  induction results with
  | nil => rfl
  | cons file rest ih =>
    rw [List.map_cons, List.sum_cons, ← ih]
    rfl

theorem length_entries :
    (entries results).length = (results.map fun file => file.findings.length).sum := by
  simp only [entries, List.length_flatMap, List.length_map]

/-- Every report counts the findings of all files. -/
theorem count_eq_sum (mode : ReportMode) :
    count mode results = (results.map fun file => file.findings.length).sum := by
  cases mode with
  | short => exact length_entries results
  | full => exact length_entries results
  | json => exact total_eq_sum results

theorem count_ne_zero (mode : ReportMode) :
    count mode results ≠ 0 ↔ ∃ file ∈ results, file.findings ≠ [] := by
  rw [count_eq_sum, ne_eq, List.sum_eq_zero_iff_forall_eq_nat]
  simp only [List.mem_map, forall_exists_index, and_imp, forall_apply_eq_imp_iff₂,
    List.length_eq_zero_iff, not_forall, exists_prop, ne_eq]

theorem member?_files : (json results).member? "files" = some (.list (results.map fileJson)) := by
  simp [json, Json.member?]

theorem member?_total :
    (json results).member? "total" = some (.scalar (.integer (total results))) := by
  simp [json, Json.member?, List.lookup_cons]

theorem member?_findings {file : FileResult} (h : file.findings = [] ∨ file.error = none) :
    ((fileJson file).member? "findings").elim [] Json.items =
      file.findings.map fun finding => Entry.json ⟨file, finding⟩ := by
  cases herror : file.error with
  | none => simp [fileJson, herror, Json.member?, List.lookup_cons, Json.items]
  | some error =>
    have hnone : file.findings = [] := h.resolve_right (by simp [herror])
    simp [fileJson, herror, hnone, Json.member?, List.lookup_cons]

/-- A JSON report lists the findings of all files, if a file with an error has none. -/
theorem listed_json (h : ∀ file ∈ results, file.findings = [] ∨ file.error = none) :
    listed (json results) = (entries results).map Entry.json := by
  rw [listed, member?_files, entries, List.map_flatMap]
  simp only [Option.elim_some, Json.items, List.flatMap_map, List.map_map]
  exact List.flatMap_congr fun file hfile => member?_findings (h file hfile)

end Report

/-- Only syntax errors keep a detection from its findings. -/
theorem Detection.ofSource_eq_error {options : Options} {source : String} {tree : Cst}
    {failure : Ast.Failure} (h : ofSource options source tree = .error failure) :
    ∃ e, failure = .invalid e := by
  rw [ofSource_eq_map] at h
  cases hcst : Ast.ofCst source tree with
  | ok program =>
    rw [hcst] at h
    cases h
  | error failure' =>
    rw [hcst] at h
    obtain rfl : failure' = failure := Except.error.inj h
    exact Ast.ofCst_eq_error hcst

namespace Scan

open CommandLine (Job)
open Files (FileTree Path)

/-! ## Results of files -/

/-- A file that cannot be read, or whose source is refused. -/
def Fails (parse : Parser) (options : Options) (tree : FileTree) (path : Path) : Prop :=
  (∃ error, readSource tree path = .error error) ∨
    ∃ source error, readSource tree path = .ok source ∧
      Detection.ofSource options source (parse source) = .error (.invalid error)

/-- A file with a finding. -/
def Finds (parse : Parser) (options : Options) (tree : FileTree) (path : Path) : Prop :=
  ∃ source detection, readSource tree path = .ok source ∧
    Detection.ofSource options source (parse source) = .ok detection ∧ detection.findings ≠ []

section Results

variable (parse : Parser) (options : Options) (tree : FileTree)

variable {tree} in
theorem fails_iff {path : Path} {source : String} (hread : readSource tree path = .ok source) :
    Fails parse options tree path ↔
      ∃ e, Detection.ofSource options source (parse source) = .error (.invalid e) := by
  constructor
  · rintro (⟨error, hread'⟩ | ⟨source', e, hread', hrefused⟩)
    · rw [hread] at hread'
      cases hread'
    · obtain rfl : source = source' := Except.ok.inj (hread.symm.trans hread')
      exact ⟨e, hrefused⟩
  · rintro ⟨e, hrefused⟩
    exact Or.inr ⟨source, e, hread, hrefused⟩

variable {tree} in
theorem finds_iff {path : Path} {source : String} (hread : readSource tree path = .ok source) :
    Finds parse options tree path ↔
      ∃ detection, Detection.ofSource options source (parse source) = .ok detection ∧
        detection.findings ≠ [] := by
  constructor
  · rintro ⟨source', detection, hread', hfound⟩
    obtain rfl : source = source' := Except.ok.inj (hread.symm.trans hread')
    exact ⟨detection, hfound⟩
  · rintro ⟨detection, hfound⟩
    exact ⟨source, detection, hread, hfound⟩

variable {tree} in
/-- A file whose source passes does not fail, and it has a finding if its source has one. -/
theorem not_fails_of_ok {path : Path} {source : String} {detection : Detection}
    (hread : readSource tree path = .ok source)
    (hdetection : Detection.ofSource options source (parse source) = .ok detection) :
    ¬Fails parse options tree path ∧
      (Finds parse options tree path ↔ detection.findings ≠ []) := by
  rw [fails_iff parse options hread, finds_iff parse options hread, hdetection]
  refine ⟨?_, ?_, fun hfindings => ⟨detection, rfl, hfindings⟩⟩
  · rintro ⟨e, he⟩
    cases he
  · rintro ⟨detection', hok, hfindings⟩
    cases hok
    exact hfindings

/-- A file fails and gives no findings, or it gives the findings of its source. -/
theorem result_cases (path : Path) :
    let result := (Verdict.ofFile parse options tree path).result path
    Fails parse options tree path ∧ ¬Finds parse options tree path ∧
        result.error ≠ none ∧ result.findings = [] ∨
      ¬Fails parse options tree path ∧ result.error = none ∧
        (Finds parse options tree path ↔ result.findings ≠ []) := by
  intro result
  cases hread : readSource tree path with
  | error error =>
    have hverdict : Verdict.ofFile parse options tree path = .unreadable error := by
      simp only [Verdict.ofFile, hread]
    refine Or.inl ⟨Or.inl ⟨error, hread⟩, ?_, ?_⟩
    · rintro ⟨source, detection, hread', -⟩
      rw [hread] at hread'
      cases hread'
    · simp only [result, hverdict]
      exact ⟨Option.some_ne_none _, rfl⟩
  | ok source =>
    cases hdetection : Detection.ofSource options source (parse source) with
    | error failure =>
      -- Nothing but a syntax error keeps a source from its findings.
      obtain ⟨e, rfl⟩ := Detection.ofSource_eq_error hdetection
      rw [fails_iff parse options hread, finds_iff parse options hread, hdetection]
      simp only [result, ofFile_of_error hread hdetection]
      exact Or.inl ⟨⟨e, rfl⟩, by simp, Option.some_ne_none _, rfl⟩
    | ok detection =>
      obtain ⟨hpasses, hfinds⟩ := not_fails_of_ok parse options hread hdetection
      simp only [result, ofFile_of_ok hread hdetection]
      exact Or.inr ⟨hpasses, rfl, hfinds⟩

theorem error_result_iff (path : Path) :
    ((Verdict.ofFile parse options tree path).result path).error ≠ none ↔
      Fails parse options tree path := by
  obtain ⟨hfails, -, herror, -⟩ | ⟨hfails, herror, -⟩ := result_cases parse options tree path
  · exact ⟨fun _ => hfails, fun _ => herror⟩
  · exact ⟨fun h => absurd herror h, fun h => absurd h hfails⟩

theorem findings_result_iff (path : Path) :
    ((Verdict.ofFile parse options tree path).result path).findings ≠ [] ↔
      Finds parse options tree path := by
  obtain ⟨-, hfinds, -, hnone⟩ | ⟨-, -, hfinds⟩ := result_cases parse options tree path
  · exact ⟨fun h => absurd hnone h, fun h => absurd h hfinds⟩
  · exact hfinds.symm

/-- A result with an error has no findings. -/
theorem findings_eq_nil_or {paths : List Path} :
    ∀ file ∈ results parse options tree paths, file.findings = [] ∨ file.error = none := by
  intro file hfile
  obtain ⟨path, -, rfl⟩ := List.mem_map.mp hfile
  obtain ⟨-, -, -, hnone⟩ | ⟨-, herror, -⟩ := result_cases parse options tree path
  · exact Or.inl hnone
  · exact Or.inr herror

theorem failures_ne_zero (paths : List Path) :
    failures (results parse options tree paths) ≠ 0 ↔
      ∃ path ∈ paths, Fails parse options tree path := by
  rw [failures, ne_eq, List.length_eq_zero_iff, List.filter_eq_nil_iff]
  simp only [results, List.mem_map, forall_exists_index, and_imp, forall_apply_eq_imp_iff₂,
    not_forall, not_not, exists_prop, Option.isSome_iff_ne_none, error_result_iff]

theorem count_results_ne_zero (mode : ReportMode) (paths : List Path) :
    Report.count mode (results parse options tree paths) ≠ 0 ↔
      ∃ path ∈ paths, Finds parse options tree path := by
  rw [Report.count_ne_zero]
  simp only [results, List.mem_map, exists_exists_and_eq_and, findings_result_iff]

end Results

/-! ## Exit codes -/

/-- `ExitsFor parse options tree files code`: the exit code tells how the scan of files
    went. -/
structure ExitsFor (parse : Parser) (options : Options) (tree : FileTree) (files : List Path)
    (code : Nat) : Prop where
  failure : code = 2 ↔ files = [] ∨ ∃ path ∈ files, Fails parse options tree path
  findings : code = 1 ↔ files ≠ [] ∧ (¬∃ path ∈ files, Fails parse options tree path) ∧
    ∃ path ∈ files, Finds parse options tree path
  clean : code = 0 ↔ files ≠ [] ∧ (¬∃ path ∈ files, Fails parse options tree path) ∧
    ¬∃ path ∈ files, Finds parse options tree path

section ExitCode

variable {parse : Parser} {options : Options} {tree : FileTree} {files : List Path}

/-- There is one code for each way a scan can go. -/
theorem ExitsFor.unique {code code' : Nat} (h : ExitsFor parse options tree files code)
    (h' : ExitsFor parse options tree files code') : code = code' := by
  by_cases hfails : files = [] ∨ ∃ path ∈ files, Fails parse options tree path
  · rw [h.failure.mpr hfails, h'.failure.mpr hfails]
  · obtain ⟨hfiles, hfails⟩ := not_or.mp hfails
    by_cases hfinds : ∃ path ∈ files, Finds parse options tree path
    · rw [h.findings.mpr ⟨hfiles, hfails, hfinds⟩, h'.findings.mpr ⟨hfiles, hfails, hfinds⟩]
    · rw [h.clean.mpr ⟨hfiles, hfails, hfinds⟩, h'.clean.mpr ⟨hfiles, hfails, hfinds⟩]

theorem exitsFor_nil : ExitsFor parse options tree [] exitFailure where
  failure := by simp [exitFailure]
  findings := by simp [exitFailure]
  clean := by simp [exitFailure]

theorem exitsFor_exitCode (mode : ReportMode) (h : files ≠ []) :
    ExitsFor parse options tree files (exitCode mode (results parse options tree files)) := by
  have hfailed := failures_ne_zero parse options tree files
  have hcounted := count_results_ne_zero parse options tree mode files
  rw [exitCode]
  by_cases hfails : ∃ path ∈ files, Fails parse options tree path
  · rw [if_pos (hfailed.mpr hfails), exitFailure]
    exact ⟨by simp [hfails], by simp [hfails], by simp [hfails]⟩
  · rw [if_neg (mt hfailed.mp hfails)]
    by_cases hfinds : ∃ path ∈ files, Finds parse options tree path
    · rw [if_pos (hcounted.mpr hfinds), exitFindings]
      exact ⟨by simp [h, hfails], by simp [h, hfails, hfinds], by simp [hfinds]⟩
    · rw [if_neg (mt hcounted.mp hfinds), exitClean]
      exact ⟨by simp [h, hfails], by simp [hfinds], by simp [h, hfails, hfinds]⟩

end ExitCode

/-! ## Runs -/

/-- The copy of a job's report can be saved, if there is to be one: its directory can be
    made, and at its place stands neither a directory nor a file that may not be opened. -/
def CanSave (tree : FileTree) (job : Job) : Prop :=
  ∀ directory ∈ outputDirectory? job, ∃ made place, tree.makeDirectories directory = .ok made ∧
    made.newPlace (outputPath job directory) = .ok place ∧ made.isDirectory place = false ∧
    made.get? place ≠ some .locked

section Run

variable {parse : Parser} {env : Environment} {tree : FileTree} {job : Job} {mode : ReportMode}
variable {limit size : Int}

theorem canSave_of_outputDir_eq_none (h : job.outputDir = none) : CanSave tree job := by
  intro directory hdirectory
  rw [outputDirectory?, h] at hdirectory
  cases hdirectory

theorem CanSave.exists_saved (h : CanSave tree job) (report : String) :
    ∃ saved, saveReport tree job report = .ok saved := by
  rw [saveReport]
  split
  · exact ⟨tree, rfl⟩
  · rename_i directory hdirectory
    obtain ⟨made, place, hmade, hplace, hfree, hopens⟩ := h directory hdirectory
    simp only [hmade, FileTree.write, hplace, bind, Except.bind]
    split
    · rename_i hget
      simp [FileTree.isDirectory, hget] at hfree
    · rename_i hget
      exact absurd hget hopens
    · exact ⟨made, rfl⟩
    · exact ⟨_, rfl⟩

theorem options_eq (hlimit : job.limit = some limit) (hsize : job.snippetSize = some size) :
    job.options = .ok { resultLimit := limit, snippetMaxLength := max size 0 } := by
  rw [Job.options, hlimit, hsize]
  rfl

/-- A scan comes to its end, with the exit code for its files. -/
theorem exists_run (parse : Parser) (env : Environment) (job : Job) (hmode : job.mode = some mode)
    (hlimit : job.limit = some limit) (hsize : job.snippetSize = some size)
    (hcheck : job.check = false) (hsave : CanSave tree job) :
    ∃ outcome, run parse env tree job = .ok outcome ∧
      ExitsFor parse { resultLimit := limit, snippetMaxLength := max size 0 } tree
        (tree.sources (.ofText job.input)) outcome.exit := by
  rw [run, hmode]
  cases hfiles : tree.sources (.ofText job.input) with
  | nil => exact ⟨_, rfl, exitsFor_nil⟩
  | cons path rest =>
    have hoptions : optionsFor tree job (path :: rest) =
        .ok { resultLimit := limit, snippetMaxLength := max size 0 } := by
      simp only [optionsFor, options_eq hlimit hsize]
    obtain ⟨saved, hsaved⟩ := hsave.exists_saved (Report.text (.ofEnvironment env) mode
      (results parse { resultLimit := limit, snippetMaxLength := max size 0 } tree (path :: rest)))
    simp only [hcheck, report, hoptions, hsaved, bind, Except.bind, Except.mapError, pure,
      Except.pure]
    exact ⟨_, rfl, exitsFor_exitCode mode (List.cons_ne_nil _ _)⟩

/-- The exit code of a scan.  A scan that can save its report comes to its end.  It exits
    with 2 exactly if there is no file or a file fails, and otherwise with 1 if a file has
    a finding and 0 if none has; the mode, the output directory, the dump and the
    environment make no difference.  There is one result for each file, in order and the
    same as that of the file alone, without findings if the file fails; and every report
    counts the findings of all results, which are also what a JSON report gives as its
    total and lists. -/
theorem scan_exit_code (parse : Parser) (env : Environment) (hmode : job.mode = some mode)
    (hlimit : job.limit = some limit) (hsize : job.snippetSize = some size)
    (hcheck : job.check = false) (hsave : CanSave tree job) :
    let options : Options := { resultLimit := limit, snippetMaxLength := max size 0 }
    (∃ outcome, run parse env tree job = .ok outcome ∧
      ExitsFor parse options tree (tree.sources (.ofText job.input)) outcome.exit ∧
      ∀ env' mode' outputDir dump,
        let other := { job with mode := some mode', outputDir, dump }
        CanSave tree other → ∃ outcome', run parse env' tree other = .ok outcome' ∧
          outcome'.exit = outcome.exit) ∧
    ∀ paths : List Path, let found := results parse options tree paths
      found.length = paths.length ∧
      (∀ (i : Nat) path, paths[i]? = some path → ∃ result, found[i]? = some result ∧
        results parse options tree [path] = [result] ∧
        (result.error ≠ none ↔ Fails parse options tree path) ∧
        (result.error ≠ none → result.findings = [])) ∧
      (∀ mode', Report.count mode' found = (found.map fun file => file.findings.length).sum) ∧
      (Report.json found).member? "total" = some (.scalar (.integer (Report.count .json found))) ∧
      (Report.listed (Report.json found)).length = Report.count .json found := by
  intro options
  refine ⟨?_, fun paths =>
    ⟨List.length_map _, ?_, Report.count_eq_sum _, Report.member?_total _, ?_⟩⟩
  · obtain ⟨outcome, hrun, hexit⟩ := exists_run parse env job hmode hlimit hsize hcheck hsave
    refine ⟨outcome, hrun, hexit, ?_⟩
    intro env' mode' outputDir dump other hsave'
    obtain ⟨outcome', hrun', hexit'⟩ := exists_run parse env' other rfl hlimit hsize hcheck hsave'
    exact ⟨outcome', hrun', hexit'.unique hexit⟩
  · intro i path hpath
    refine ⟨(Verdict.ofFile parse options tree path).result path, ?_, rfl,
      error_result_iff parse options tree path, ?_⟩
    · rw [results, List.getElem?_map, hpath]
      rfl
    · intro herror
      obtain ⟨-, -, -, hnone⟩ | ⟨-, herror', -⟩ := result_cases parse options tree path
      · exact hnone
      · exact absurd herror' herror
  · rw [Report.listed_json _ (findings_eq_nil_or parse options tree), List.length_map,
      Report.length_entries, Report.count_eq_sum]

end Run

/-! ### Scripts that fail, that have findings and that are clean -/

/-- A directory with a file that may not be opened and a byte that begins no character, and
    in it one with an arrow function and an empty statement. -/
def mixedScripts : FileTree :=
  { entries :=
      [(["w"], .directory), (["w", "torn.js"], .file [0xff]), (["w", "locked.js"], .locked),
        (["w", "lib"], .directory), (["w", "lib", "empty.js"], .file [0x3b]),
        (["w", "lib", "arrow.js"], .file [0x78, 0x3d, 0x3e, 0x78])]
    home := ["w"] }

/-- A scan of the working directory, by way of the directory above it, with a copy of the
    report in a directory that does not exist. -/
def scanMixedScripts : Job :=
  { input := "../w", mode := some .json, outputDir := some "out/x" }

theorem canSave_scanMixedScripts : CanSave mixedScripts scanMixedScripts := by
  intro directory hdirectory
  obtain rfl : "out/x" = directory := Option.some.inj hdirectory
  exact ⟨_, ["w", "out", "x", "OUT-w.json"], rfl, rfl, rfl, by decide⟩

/-- The empty statement neither fails nor has a finding. -/
theorem clean_mixedScripts :
    ¬Fails Script.parse {} mixedScripts ⟨0, ["lib", "empty.js"]⟩ ∧
      ¬Finds Script.parse {} mixedScripts ⟨0, ["lib", "empty.js"]⟩ := by
  have hread : readSource mixedScripts ⟨0, ["lib", "empty.js"]⟩ = .ok ";" := by decide +kernel
  have hparse : Script.parse ";" = .node ⟨"program", 0, 1, true, false, false, none⟩
      [.node ⟨"empty_statement", 0, 1, true, false, false, none⟩
        [.node ⟨";", 0, 1, false, false, false, none⟩ []]] := rfl
  have hdetection : Detection.ofSource {} ";" (Script.parse ";") =
      .ok { findings := [], visited := 2, kind := "Program" } := by
    rw [hparse]
    decide +kernel
  obtain ⟨hpasses, hfinds⟩ := not_fails_of_ok _ _ hread hdetection
  exact ⟨hpasses, fun hfound => hfinds.mp hfound rfl⟩

/-- The arrow function does not fail and is found. -/
theorem finds_mixedScripts :
    ¬Fails Script.parse {} mixedScripts ⟨0, ["lib", "arrow.js"]⟩ ∧
      Finds Script.parse {} mixedScripts ⟨0, ["lib", "arrow.js"]⟩ := by
  have hread : readSource mixedScripts ⟨0, ["lib", "arrow.js"]⟩ = .ok "x=>x" := by decide +kernel
  have hparse : Script.parse "x=>x" = .node ⟨"program", 0, 4, true, false, false, none⟩
      [.node ⟨"expression_statement", 0, 4, true, false, false, none⟩
        [.node ⟨"arrow_function", 0, 4, true, false, false, none⟩
          [.node ⟨"identifier", 0, 1, true, false, false, some "parameter"⟩ [],
           .node ⟨"=>", 1, 3, false, false, false, none⟩ [],
           .node ⟨"identifier", 3, 4, true, false, false, none⟩ []]]] := rfl
  have hdetection : Detection.ofSource {} "x=>x" (Script.parse "x=>x") =
      .ok { findings := [⟨.arrowFunction, "arrow function", .null, "x=>x", 0⟩]
            visited := 5
            kind := "Program" } := by
    rw [hparse]
    decide +kernel
  obtain ⟨hpasses, hfinds⟩ := not_fails_of_ok _ _ hread hdetection
  exact ⟨hpasses, hfinds.mpr (List.cons_ne_nil _ _)⟩

/-- A file that may not be opened is a source, and fails. -/
theorem fails_mixedScripts :
    (⟨0, ["..", "w", "locked.js"]⟩ : Path) ∈
        mixedScripts.sources (.ofText scanMixedScripts.input) ∧
      Fails Script.parse {} mixedScripts ⟨0, ["..", "w", "locked.js"]⟩ := by
  have hplace : mixedScripts.place? (.ofText scanMixedScripts.input) = some ["w"] := by
    decide +kernel
  have hread : readSource mixedScripts ⟨0, ["..", "w", "locked.js"]⟩ =
      .error (.file ⟨.denied, "../w/locked.js"⟩) := by
    decide +kernel
  refine ⟨(FileTree.perm_sources hplace rfl).mem_iff.mpr ?_, Or.inl ⟨_, hread⟩⟩
  decide +kernel

theorem mem_sources_lib {path : Path} :
    path ∈ mixedScripts.sources (.ofText "lib") ↔
      path = ⟨0, ["lib", "empty.js"]⟩ ∨ path = ⟨0, ["lib", "arrow.js"]⟩ := by
  have hplace : mixedScripts.place? (.ofText "lib") = some ["w", "lib"] := by decide +kernel
  have hfiles : ((mixedScripts.filesBelow ["w", "lib"]).filter Files.isSource).map
      (Path.append (.ofText "lib")) = [⟨0, ["lib", "empty.js"]⟩, ⟨0, ["lib", "arrow.js"]⟩] := by
    decide +kernel
  have hsources := FileTree.perm_sources hplace rfl
  rw [hfiles] at hsources
  rw [hsources.mem_iff, List.mem_pair]

/-- The working directory exits with 2, with and without a copy of the report, the inner
    directory with 1 for the arrow function in it, and its other file alone with 0. -/
theorem scan_exit_code_mixedScripts :
    CanSave mixedScripts scanMixedScripts ∧
      (∃ outcome, run Script.parse {} mixedScripts scanMixedScripts = .ok outcome ∧
        outcome.exit = 2) ∧
      (∃ outcome, run Script.parse {} mixedScripts
        { scanMixedScripts with mode := some .full, outputDir := none, dump := true } =
          .ok outcome ∧ outcome.exit = 2) ∧
      (∃ outcome, run Script.parse {} mixedScripts { input := "lib" } = .ok outcome ∧
        outcome.exit = 1) ∧
      ∃ outcome, run Script.parse {} mixedScripts { input := "lib/empty.js" } = .ok outcome ∧
        outcome.exit = 0 := by
  have hlib : CanSave mixedScripts { input := "lib" } := canSave_of_outputDir_eq_none rfl
  have hempty : CanSave mixedScripts { input := "lib/empty.js" } :=
    canSave_of_outputDir_eq_none rfl
  obtain ⟨⟨failed, hfailed, hfailure, hother⟩, -⟩ :=
    scan_exit_code Script.parse {} rfl rfl rfl rfl canSave_scanMixedScripts
  obtain ⟨⟨modern, hmodern, hfindings, -⟩, -⟩ :=
    scan_exit_code Script.parse {} rfl rfl rfl rfl hlib
  obtain ⟨⟨plain, hplain, hclean, -⟩, -⟩ := scan_exit_code Script.parse {} rfl rfl rfl rfl hempty
  obtain ⟨full, hfull, hsame⟩ := hother {} .full none true (canSave_of_outputDir_eq_none rfl)
  have hcode : failed.exit = 2 := hfailure.failure.mpr (Or.inr ⟨_, fails_mixedScripts⟩)
  refine ⟨canSave_scanMixedScripts, ⟨failed, hfailed, hcode⟩, ⟨full, hfull, hsame.trans hcode⟩,
    ⟨modern, hmodern, hfindings.findings.mpr ?_⟩, ⟨plain, hplain, hclean.clean.mpr ?_⟩⟩
  · have harrow := mem_sources_lib.mpr (Or.inr rfl)
    refine ⟨List.ne_nil_of_mem harrow, ?_, _, harrow, finds_mixedScripts.2⟩
    rintro ⟨path, hpath, hfails⟩
    obtain rfl | rfl := mem_sources_lib.mp hpath
    · exact clean_mixedScripts.1 hfails
    · exact finds_mixedScripts.1 hfails
  · have hsources : mixedScripts.sources (.ofText "lib/empty.js") =
        [⟨0, ["lib", "empty.js"]⟩] := by
      decide +kernel
    simp only [hsources, List.mem_singleton, exists_eq_left]
    exact ⟨List.cons_ne_nil _ _, clean_mixedScripts⟩

end Scan

end EsFeatures
