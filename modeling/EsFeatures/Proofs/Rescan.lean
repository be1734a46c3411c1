/-
  EsFeatures.Proofs.Rescan

  A scan leaves its input alone.  The copy of a report has a name that no script has and
  that is longer than the name of what is scanned, so it is never one of the sources,
  wherever the output directory lies.  A scan therefore finds the same sources afterwards,
  with the same contents, and where its directories and its report stand already it
  changes nothing: the same scan once more has the same outcome.
-/
import EsFeatures.Proofs.Directories
import EsFeatures.Proofs.ExitCode

namespace EsFeatures.Scan

open CommandLine (Job)
open Files (FileTree Place Path Entry baseName suffix isSource namesWithDots)

/-! ## The name of a report -/

/-- The name of the copy of a report. -/
def reportName (job : Job) : String :=
  "OUT-" ++ baseName job.input ++ if job.mode = some .json then ".json" else ".txt"

section ReportName

variable (job : Job)

theorem outputPath_eq (directory : String) :
    outputPath job directory = Files.joinText directory (reportName job) := rfl

theorem reportName_ne_empty : reportName job ≠ "" := by
  intro h
  have hlength := congrArg String.length h
  simp [reportName, String.length_append] at hlength

theorem slash_notMem_reportName : '/' ∉ (reportName job).toList := by
  have hbase := Files.slash_notMem_baseName job.input
  rw [reportName, String.toList_append, String.toList_append, List.mem_append, List.mem_append,
    not_or, not_or]
  refine ⟨⟨by decide, hbase⟩, ?_⟩
  split
  · decide
  · decide

/-- No script has the name of a report. -/
theorem suffix_reportName : Files.scriptSuffixes.contains (suffix (reportName job)) = false := by
  have hname : "OUT-" ++ baseName job.input ≠ "" := by
    intro h
    have hlength := congrArg String.length h
    simp [String.length_append] at hlength
  rw [reportName]
  split
  · have hsuffix := Files.suffix_append ['j', 's', 'o', 'n'] hname (by decide) (by decide)
    rw [show ".json" = String.ofList ['.', 'j', 's', 'o', 'n'] from rfl, hsuffix]
    decide
  · have hsuffix := Files.suffix_append ['t', 'x', 't'] hname (by decide) (by decide)
    rw [show ".txt" = String.ofList ['.', 't', 'x', 't'] from rfl, hsuffix]
    decide

/-- What is scanned has a shorter name than the report. -/
theorem baseName_ne_reportName : baseName job.input ≠ reportName job := by
  intro h
  have hlength := congrArg String.length h
  rw [reportName, String.length_append, String.length_append] at hlength
  have hout : "OUT-".length = 4 := rfl
  omega

end ReportName

/-! ## Sources -/

section Sources

variable {tree : FileTree} {job : Job}

/-- A file has the name with which a path to it ends. -/
theorem exists_eq_append_baseName (hsound : tree.Sound) {text : String} {place : Place}
    (hplace : tree.place? (.ofText text) = some place) (hfile : tree.isDirectory place = false) :
    ∃ parent, place = parent ++ [baseName text] := by
  obtain hnames | ⟨front, name, hnames⟩ := List.eq_nil_or_concat (Path.ofText text).names
  · -- A path without names leads to the directory in which it starts.
    rw [FileTree.place?, hnames] at hplace
    obtain rfl := (FileTree.eq_foldl_of_follow? hplace).1
    rw [List.foldl_nil, hsound.origin_isDirectory] at hfile
    cases hfile
  · rw [List.concat_eq_append] at hnames
    rw [FileTree.place?, hnames, FileTree.follow?_append] at hplace
    obtain ⟨parent, -, hlast⟩ := Option.bind_eq_some_iff.mp hplace
    have hparent : tree.isDirectory parent = true := by
      by_contra hno
      rw [FileTree.follow?, if_neg hno] at hlast
      cases hlast
    obtain rfl := (FileTree.eq_foldl_of_follow? hlast).1
    -- A last name that leads back would lead to a directory.
    have hname : name ≠ "." ∧ name ≠ ".." := by
      by_contra hback
      rw [List.foldl_cons, List.foldl_nil, hsound.isDirectory_step hparent hback] at hfile
      cases hfile
    refine ⟨parent, ?_⟩
    rw [Files.baseName_eq hnames hname.2]
    exact Place.step_of_regular parent hname

/-- The names of a source do not end with the name of a report. -/
theorem ne_of_isSource {names : List String} (h : isSource names = true) (place parent : Place) :
    place ++ names ≠ parent ++ [reportName job] := by
  intro heq
  have hlast := congrArg List.getLast? heq
  rw [List.getLast?_append, List.getLast?_concat] at hlast
  cases hname : names.getLast? with
  | none =>
    rw [isSource, hname] at h
    cases h
  | some name =>
    rw [hname] at hlast
    obtain rfl : name = reportName job := Option.some.inj hlast
    rw [isSource, hname, Option.any_some, suffix_reportName] at h
    cases h

/-- A file at the input path does not have the name of its report. -/
theorem ne_of_file (hsound : tree.Sound) {place : Place} {entry : Entry}
    (hplace : tree.place? (.ofText job.input) = some place) (hget : tree.get? place = some entry)
    (hfile : entry.isFile = true) (parent : Place) : place ≠ parent ++ [reportName job] := by
  obtain ⟨front, rfl⟩ :=
    exists_eq_append_baseName hsound hplace (FileTree.isDirectory_of_isFile hget hfile)
  intro heq
  have hlast := congrArg List.getLast? heq
  rw [List.getLast?_concat, List.getLast?_concat] at hlast
  exact baseName_ne_reportName job (Option.some.inj hlast)

/-- Every source stands at a place that is not that of a report. -/
theorem exists_place_of_mem_sources (hsound : tree.Sound) {path : Path}
    (h : path ∈ tree.sources (.ofText job.input)) :
    ∃ place, tree.place? path = some place ∧ ∀ parent, place ≠ parent ++ [reportName job] := by
  obtain ⟨place, hplace, ⟨entry, hget, hfile⟩ | hdirectory⟩ :=
    FileTree.exists_place_of_sources_ne_nil (List.ne_nil_of_mem h)
  · rw [FileTree.sources_of_file hplace hget hfile, List.mem_singleton] at h
    rw [h]
    exact ⟨place, hplace, ne_of_file hsound hplace hget hfile⟩
  · rw [(FileTree.perm_sources hplace hdirectory).mem_iff] at h
    obtain ⟨names, hnames, rfl⟩ := List.mem_map.mp h
    obtain ⟨hbelow, hsource⟩ := List.mem_filter.mp hnames
    refine ⟨place ++ names, ?_, ne_of_isSource hsource place⟩
    rw [FileTree.place?_append, hplace]
    exact hsound.follow?_eq (FileTree.mem_filesBelow hbelow).2

end Sources

/-! ## Saving a report -/

/-- What saving a report leaves behind: directories on the way to its own, and a file in
    that directory, `parent`, which is not among the sources. -/
structure Saves (job : Job) (directory : String) (before after : FileTree) (parent : Place) :
    Prop where
  grows : FileTree.Extends before after
  leads : after.place? (.ofTextWithDots directory) = some parent
  changes : ∀ place, after.get? place ≠ before.get? place →
    before.get? place = none ∧ after.get? place = some .directory ∧
        place ∈ Place.way (before.origin (.ofTextWithDots directory)) (namesWithDots directory) ∨
      place = parent ++ [reportName job] ∧ ∃ bytes, after.get? place = some (.file bytes)
  sources : ∀ place,
    (after.filesBelow place).filter isSource = (before.filesBelow place).filter isSource

section Save

variable {tree saved : FileTree} {job : Job} {directory text : String}

theorem ne_empty_of_outputDirectory? (h : outputDirectory? job = some directory) :
    directory ≠ "" := by
  rw [outputDirectory?, Option.filter_eq_some_iff] at h
  simpa using h.2

theorem saves_of_made {made : FileTree} {parent : Place}
    (hmade : FileTree.Made directory tree made parent) : Saves job directory tree made parent where
  grows := hmade.furnishes.toExtends
  leads := hmade.leads
  changes place hchanged := by
    cases hget : tree.get? place with
    | some entry => exact absurd ((hmade.furnishes.kept place entry hget).trans hget.symm) hchanged
    | none =>
      obtain hnone | ⟨hnew, hway⟩ := hmade.furnishes.added place hget
      · exact absurd (hnone.trans hget.symm) hchanged
      · exact Or.inl ⟨rfl, hnew, hway⟩
  sources place := by rw [hmade.furnishes.files]

/-- The file of the report on top of its directories. -/
theorem Saves.insert {made : FileTree} {parent : Place} (h : Saves job directory tree made parent)
    (hfree : made.isDirectory (parent ++ [reportName job]) = false) (bytes : List UInt8) :
    Saves job directory tree (made.insert (parent ++ [reportName job]) (.file bytes)) parent := by
  have hplace := Place.concat_ne_nil parent (reportName job)
  have hgrows := FileTree.extends_insert_file bytes hplace hfree
  refine ⟨h.grows.trans hgrows, hgrows.place? h.leads, ?_, ?_⟩
  · intro place hchanged
    rw [FileTree.get?_insert _ hplace] at hchanged ⊢
    split
    · rename_i heq
      exact Or.inr ⟨heq, bytes, rfl⟩
    · rename_i hne
      rw [if_neg hne] at hchanged
      exact (h.changes place hchanged).imp_right fun hreport => absurd hreport.1 hne
  · -- Below whatever directory the report stands, it does not count as a source there.
    intro place
    rw [FileTree.filter_filesBelow_insert, h.sources]
    intro names hnames
    by_contra hsource
    exact ne_of_isSource (eq_true_of_ne_false hsource) place parent hnames.symm

/-- `Holds tree place`: a file or a device stands at a place. -/
def Holds (tree : FileTree) (place : Place) : Prop :=
  tree.get? place = some .device ∨ ∃ bytes, tree.get? place = some (.file bytes)

theorem saveReport_eq (hdirectory : outputDirectory? job = some directory) (tree : FileTree)
    (text : String) :
    saveReport tree job text = (do
      let made ← tree.makeDirectories directory
      made.write (outputPath job directory) (Text.Utf8.encode text.toList)) := by
  rw [saveReport, hdirectory]

/-- The report goes into the output directory. -/
theorem newPlace_outputPath (hdirectory : outputDirectory? job = some directory) {parent : Place}
    (hleads : tree.place? (.ofTextWithDots directory) = some parent)
    (hparent : tree.isDirectory parent = true) :
    tree.newPlace (outputPath job directory) = .ok (parent ++ [reportName job]) := by
  rw [outputPath_eq]
  exact FileTree.newPlace_joinText (ne_empty_of_outputDirectory? hdirectory)
    (reportName_ne_empty job) (slash_notMem_reportName job) hleads hparent

theorem saves_of_write {made : FileTree} {parent : Place} {bytes : List UInt8}
    (hmade : FileTree.Made directory tree made parent)
    (hplace : made.newPlace (outputPath job directory) = .ok (parent ++ [reportName job]))
    (h : made.write (outputPath job directory) bytes = .ok saved) :
    Saves job directory tree saved parent ∧ Holds saved (parent ++ [reportName job]) ∧
      FileTree.Extends made saved := by
  have hnil := Place.concat_ne_nil parent (reportName job)
  obtain ⟨hdevice, rfl⟩ | ⟨hfree, rfl⟩ := FileTree.write_cases hplace h
  · exact ⟨saves_of_made hmade, Or.inl hdevice, .refl _⟩
  · refine ⟨(saves_of_made hmade).insert hfree bytes, ?_,
      FileTree.extends_insert_file bytes hnil hfree⟩
    exact Or.inr ⟨bytes, FileTree.get?_insert_self made (.file bytes) hnil⟩

/-- A report is saved in its directory, and saving it once more changes nothing. -/
theorem saveReport_eq_ok (hsound : tree.Sound) (hdirectory : outputDirectory? job = some directory)
    (h : saveReport tree job text = .ok saved) :
    (∃ parent, Saves job directory tree saved parent ∧ Holds saved (parent ++ [reportName job])) ∧
      saveReport saved job text = .ok saved := by
  rw [saveReport_eq hdirectory] at h ⊢
  obtain ⟨made, hmakes, hwrite⟩ := Ast.bind_eq_ok.mp h
  obtain ⟨parent, hmade⟩ := FileTree.makeDirectories_eq_ok hsound hmakes
  have hplace := newPlace_outputPath hdirectory hmade.leads hmade.directory
  obtain ⟨hsaves, hholds, hgrows⟩ := saves_of_write hmade hplace hwrite
  refine ⟨⟨parent, hsaves, hholds⟩, Ast.bind_eq_ok.mpr ⟨saved, ?_, ?_⟩⟩
  · -- All stages of the output directory stand by now.
    exact FileTree.makeDirectories_eq_self
      (fun stage hstage => hgrows.stands_text (hmade.stages stage hstage)) hsaves.leads
      (hgrows.directory parent hmade.directory)
  · have hplace' := newPlace_outputPath hdirectory hsaves.leads
      (hgrows.directory parent hmade.directory)
    exact FileTree.write_again hplace hplace' hwrite

end Save

/-! ## Scanning once more -/

section Rescan

variable {before after : FileTree} {job : Job} {directory : String} {parent : Place}

/-- What stands away from the report stays. -/
theorem Saves.get?_eq (h : Saves job directory before after parent) {place : Place} {entry : Entry}
    (hget : before.get? place = some entry) (hplace : place ≠ parent ++ [reportName job]) :
    after.get? place = some entry := by
  by_contra hchanged
  obtain ⟨hnone, -⟩ | ⟨hreport, -⟩ := h.changes place (by rwa [hget])
  · rw [hget] at hnone
    cases hnone
  · exact hplace hreport

/-- A source keeps its place and its contents, and the report stands elsewhere. -/
theorem Saves.exists_place (h : Saves job directory before after parent) (hsound : before.Sound)
    {path : Path} (hpath : path ∈ before.sources (.ofText job.input)) :
    ∃ place, before.place? path = some place ∧ place ≠ parent ++ [reportName job] ∧
      after.place? path = some place ∧ after.get? place = before.get? place := by
  obtain ⟨place, hplace, hne⟩ := exists_place_of_mem_sources hsound hpath
  obtain ⟨entry, hentry⟩ := Option.isSome_iff_exists.mp (FileTree.eq_foldl_of_follow? hplace).2
  exact ⟨place, hplace, hne parent, h.grows.place? hplace,
    (h.get?_eq hentry (hne parent)).trans hentry.symm⟩

theorem Saves.readSource_eq (h : Saves job directory before after parent) (hsound : before.Sound)
    {path : Path} (hpath : path ∈ before.sources (.ofText job.input)) :
    readSource after path = readSource before path := by
  obtain ⟨place, hplace, -, hplace', hget⟩ := h.exists_place hsound hpath
  have hfind : after.find? path = before.find? path := by
    rw [FileTree.find?, hplace', FileTree.find?, hplace]
    exact hget
  rw [readSource, FileTree.read, hfind, readSource, FileTree.read]

/-- The same sources are found. -/
theorem Saves.sources_eq (h : Saves job directory before after parent) (hsound : before.Sound)
    (hsources : before.sources (.ofText job.input) ≠ []) :
    after.sources (.ofText job.input) = before.sources (.ofText job.input) := by
  obtain ⟨place, hplace, ⟨entry, hget, hfile⟩ | hdirectory⟩ :=
    FileTree.exists_place_of_sources_ne_nil hsources
  · have hne := ne_of_file hsound hplace hget hfile parent
    rw [FileTree.sources_of_file hplace hget hfile,
      FileTree.sources_of_file (h.grows.place? hplace) (h.get?_eq hget hne) hfile]
  · rw [FileTree.sources_of_directory hplace hdirectory,
      FileTree.sources_of_directory (h.grows.place? hplace) (h.grows.directory place hdirectory),
      Files.sourcesAmong, h.sources, Files.sourcesAmong]

end Rescan

section Report

variable {before after : FileTree} {files : List Path}

variable (hread : ∀ path ∈ files, readSource after path = readSource before path)

include hread

theorem ofFile_congr (parse : Parser) (options : Options) :
    ∀ path ∈ files, Verdict.ofFile parse options after path =
      Verdict.ofFile parse options before path := by
  intro path hpath
  rw [Verdict.ofFile, hread path hpath, Verdict.ofFile]

theorem optionsFor_congr (job : Job) :
    optionsFor after job files = optionsFor before job files := by
  have hany : files.any (isReadable after) = files.any (isReadable before) := by
    rw [Bool.eq_iff_iff, List.any_eq_true, List.any_eq_true]
    refine exists_congr fun path => and_congr_right fun hpath => ?_
    rw [isReadable, hread path hpath, isReadable]
  rw [optionsFor, hany, optionsFor]

theorem outlines_congr (parse : Parser) (env : Environment) :
    files.map (outlineFile parse env after) = files.map (outlineFile parse env before) := by
  refine List.map_congr_left fun path hpath => ?_
  rw [outlineFile, hread path hpath, outlineFile]

end Report

/-- A report depends on what can be read: on files with the same sources it differs only in
    what saving it leaves behind. -/
theorem report_eq_ok {parse : Parser} {env : Environment} {tree : FileTree} {job : Job}
    {mode : ReportMode} {files : List Path} {outcome : Outcome}
    (h : report parse env tree job mode files = .ok outcome) :
    ∃ text, saveReport tree job text = .ok outcome.files ∧
      ∀ after saved, (∀ path ∈ files, readSource after path = readSource tree path) →
        saveReport after job text = .ok saved →
          report parse env after job mode files = .ok { outcome with files := saved } := by
  rw [report] at h
  cases hoptions : optionsFor tree job files with
  | error e =>
    rw [hoptions] at h
    cases h
  | ok options =>
    rw [hoptions] at h
    simp only [bind, Except.bind, pure, Except.pure] at h
    cases hsaved : saveReport tree job
        (Report.text (.ofEnvironment env) mode (results parse options tree files)) with
    | error e =>
      rw [hsaved] at h
      cases h
    | ok saved =>
      rw [hsaved] at h
      obtain rfl := (Except.ok.inj h).symm
      refine ⟨_, hsaved, ?_⟩
      intro after saved' hread hsaved'
      -- Every part of the report asks the files only for their sources.
      have hfiles := ofFile_congr hread parse options
      have hresults : results parse options after files = results parse options tree files :=
        List.map_congr_left fun path hpath => by rw [hfiles path hpath]
      have hconsoles : (files.map fun path =>
          (Verdict.ofFile parse options after path).console env options path) =
            files.map fun path =>
              (Verdict.ofFile parse options tree path).console env options path :=
        List.map_congr_left fun path hpath => by rw [hfiles path hpath]
      simp only [report, optionsFor_congr hread, hoptions, bind, Except.bind, pure, Except.pure,
        hresults, outlines_congr hread, hconsoles, hsaved']
      rfl

section Run

variable {parse : Parser} {env : Environment} {tree : FileTree} {job : Job} {mode : ReportMode}

theorem run_eq_report (hmode : job.mode = some mode) (hcheck : job.check = false)
    (hsources : tree.sources (.ofText job.input) ≠ []) :
    run parse env tree job = report parse env tree job mode (tree.sources (.ofText job.input)) := by
  rw [run, hmode]
  cases hfiles : tree.sources (.ofText job.input) with
  | nil => exact absurd hfiles hsources
  | cons path rest => simp only [hcheck, Bool.false_eq_true, if_false]

/-- A run that reports on nothing leaves all files alone. -/
theorem run_cases {outcome : Outcome} (h : run parse env tree job = .ok outcome) :
    (job.check = true ∨ tree.sources (.ofText job.input) = []) ∧ outcome.files = tree ∨
      ∃ mode, job.mode = some mode ∧ job.check = false ∧ tree.sources (.ofText job.input) ≠ [] := by
  cases hmode : job.mode with
  | none =>
    rw [run, hmode] at h
    cases h
  | some mode =>
    by_cases hsources : tree.sources (.ofText job.input) = []
    · simp only [run, hmode, hsources, Except.ok.injEq] at h
      exact Or.inl ⟨Or.inr hsources, h ▸ rfl⟩
    · cases hcheck : job.check with
      | false => exact Or.inr ⟨mode, rfl, rfl, hsources⟩
      | true =>
        refine Or.inl ⟨Or.inl rfl, ?_⟩
        cases hfiles : tree.sources (.ofText job.input) with
        | nil => exact absurd hfiles hsources
        | cons path rest =>
          simp only [run, hmode, hfiles, hcheck, if_true, Except.ok.injEq] at h
          exact h ▸ rfl

/-- The place of the report: its name in the directory to which the names of the output
    directory lead. -/
def reportPlace (tree : FileTree) (job : Job) (directory : String) : Place :=
  (namesWithDots directory).foldl Place.step (tree.origin (.ofTextWithDots directory)) ++
    [reportName job]

theorem Saves.reportPlace_eq {saved : FileTree} {directory : String} {parent : Place}
    (h : Saves job directory tree saved parent) :
    reportPlace tree job directory = parent ++ [reportName job] := by
  rw [(FileTree.eq_foldl_of_follow? h.leads).1, h.grows.origin_eq]
  rfl

/-- A scan neither feeds on its input nor destroys it.  What changes in the files are
    missing directories on the way to the output directory, and the report in it, which
    is there in the end.  The report is none of the sources, and these keep their places
    and contents.  So the same sources are found afterwards, and the same scan once more
    has the same exit code, console and files. -/
theorem scan_keeps_input {directory : String} {outcome : Outcome} (hsound : tree.Sound)
    (hdirectory : outputDirectory? job = some directory)
    (hrun : run parse env tree job = .ok outcome) :
    outcome.files.home = tree.home ∧
    (∀ place, outcome.files.get? place ≠ tree.get? place →
      tree.get? place = none ∧ outcome.files.get? place = some .directory ∧
          place ∈ Place.way (tree.origin (.ofTextWithDots directory)) (namesWithDots directory) ∨
        place = reportPlace tree job directory ∧
          ∃ bytes, outcome.files.get? place = some (.file bytes)) ∧
    (job.check = false → tree.sources (.ofText job.input) ≠ [] →
      Holds outcome.files (reportPlace tree job directory)) ∧
    (∀ path ∈ tree.sources (.ofText job.input), ∃ place, tree.place? path = some place ∧
      place ≠ reportPlace tree job directory ∧ outcome.files.place? path = some place ∧
      outcome.files.get? place = tree.get? place) ∧
    outcome.files.sources (.ofText job.input) = tree.sources (.ofText job.input) ∧
    run parse env outcome.files job = .ok outcome := by
  obtain ⟨hnothing, hfiles⟩ | ⟨mode, hmode, hcheck, hsources⟩ := run_cases hrun
  · -- Without sources, and in a check, nothing is saved.
    rw [hfiles]
    refine ⟨rfl, fun place hchanged => absurd rfl hchanged, ?_, ?_, rfl, hrun⟩
    · intro hcheck hsources
      rcases hnothing with hcheck' | hnone
      · rw [hcheck] at hcheck'
        cases hcheck'
      · exact absurd hnone hsources
    · intro path hpath
      obtain ⟨place, hplace, hne⟩ := exists_place_of_mem_sources hsound hpath
      exact ⟨place, hplace, hne _, hplace, rfl⟩
  · have hreport := hrun
    rw [run_eq_report hmode hcheck hsources] at hreport
    obtain ⟨text, hsaved, hagain⟩ := report_eq_ok hreport
    obtain ⟨⟨parent, hsaves, hholds⟩, hsaved'⟩ := saveReport_eq_ok hsound hdirectory hsaved
    have hfound := hsaves.sources_eq hsound hsources
    rw [hsaves.reportPlace_eq]
    refine ⟨hsaves.grows.home, hsaves.changes, fun _ _ => hholds,
      fun path => hsaves.exists_place hsound, hfound, ?_⟩
    rw [run_eq_report hmode hcheck (by rwa [hfound]), hfound]
    exact hagain outcome.files outcome.files (fun path => hsaves.readSource_eq hsound) hsaved'

end Run

theorem sound_mixedScripts : mixedScripts.Sound := by
  decide

/-- The directory of the report lies in the scanned one, and the path to that leads out of
    it and back. -/
theorem scan_keeps_input_mixedScripts :
    mixedScripts.Sound ∧ outputDirectory? scanMixedScripts = some "out/x" ∧
      ∃ outcome, run Script.parse {} mixedScripts scanMixedScripts = .ok outcome ∧
        Holds outcome.files ["w", "out", "x", "OUT-w.json"] ∧
        outcome.files.sources (.ofText scanMixedScripts.input) =
          mixedScripts.sources (.ofText scanMixedScripts.input) ∧
        run Script.parse {} outcome.files scanMixedScripts = .ok outcome := by
  obtain ⟨outcome, hrun, -⟩ := exists_run Script.parse {} scanMixedScripts rfl rfl rfl rfl
    canSave_scanMixedScripts
  obtain ⟨-, -, hholds, -, hfound, hagain⟩ := scan_keeps_input sound_mixedScripts rfl hrun
  exact ⟨sound_mixedScripts, rfl, outcome, hrun,
    hholds rfl (List.ne_nil_of_mem fails_mixedScripts.1), hfound, hagain⟩

end EsFeatures.Scan
