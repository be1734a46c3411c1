/-
  EsFeatures.Proofs.ParserCheck

  What the parser check says about files, against what a scan says about them.  Both
  look at the same concrete trees.  The scan refuses a tree by the mark at its root; the
  check searches the tree for faulty nodes, down to a greatest depth.  Where marks are
  consistent the check therefore fails only for files that the scan refuses, and it
  fails for all of them but those whose faults lie deeper than it searches.
-/
import EsFeatures.Proofs.Findings
import EsFeatures.Proofs.FirstError
import EsFeatures.Scan.Basic

namespace EsFeatures

/-! ## Faults within reach -/

namespace Cst

/-- A tree with a faulty node that is not too deep for the search. -/
def FaultInReach (tree : Cst) : Prop :=
  ∃ path node, tree.at? path = some node ∧ node.isFault = true ∧
    (path.length : Int) ≤ defaultFaultDepth

/-- A fault within reach is a fault. -/
theorem FaultInReach.holdsFault {tree : Cst} (h : tree.FaultInReach) : tree.HoldsFault := by
  obtain ⟨path, node, hat, hfault, -⟩ := h
  exact ⟨path, node, hat, hfault⟩

/-- A tree with a fault within reach is marked at its root. -/
theorem FaultInReach.hasError {tree : Cst} (h : tree.FaultInReach) (hflags : tree.FlagsConsistent) :
    tree.label.hasError = true :=
  (hflags [] tree rfl).mpr h.holdsFault

end Cst

namespace Scan

open Files (FileTree Path)

/-- Where the marks are consistent, the search of a source finds nothing exactly when
    no fault lies within reach. -/
theorem sourceFaults_eq_nil {tree : Cst} (source : String) (h : tree.FlagsConsistent) :
    sourceFaults source tree = [] ↔ ¬tree.FaultInReach := by
  have hfaults := Cst.faults_eq (.ofSource source) Cst.defaultFaultDepth h 0
  rw [sourceFaults, show (0 : Int) = ((0 : Nat) : Int) from rfl, hfaults, Cst.faultsWithin,
    List.map_eq_nil_iff, List.filter_eq_nil_iff]
  constructor
  · rintro hnone ⟨path, node, hat, hfault, hdepth⟩
    have hmem : (0 + path.length, node) ∈ Cst.faultNodes 0 tree :=
      Cst.mem_faultNodes.mpr ⟨path, hat, hfault, rfl⟩
    have hdeep := hnone _ hmem
    rw [decide_eq_true_eq, Nat.zero_add] at hdeep
    exact hdeep hdepth
  · intro hreach x hx hle
    obtain ⟨path, hat, hfault, hdepth⟩ := Cst.mem_faultNodes.mp hx
    rw [decide_eq_true_eq, hdepth, Nat.zero_add] at hle
    exact hreach ⟨path, x.2, hat, hfault, hle⟩

end Scan

/-! ## Why a source is refused -/

/-- Whether a source is refused for a value that is missing, and not by the grammar. -/
def SyntaxCause.isBare : SyntaxCause → Bool
  | .bareConst => true
  | .barePattern => true
  | _ => false

namespace Ast

theorem isBare_of_bareCause? {keyword : String} {declarator : Cst} {cause : SyntaxCause}
    (h : bareCause? keyword declarator = some cause) : cause.isBare = true := by
  rw [bareCause?] at h
  split at h
  · split at h
    · cases h
      rfl
    · split at h
      · cases h
        rfl
      · cases h
  · cases h

theorem isBare_of_refusal? {source : String} {tree : Cst} {e : SyntaxError}
    (h : refusal? source tree = some e) : e.cause.isBare = true := by
  obtain ⟨keyword, -, herror⟩ := Option.bind_eq_some_iff.mp h
  obtain ⟨declarator, -, hdeclarator⟩ := List.exists_of_findSome?_eq_some herror
  obtain ⟨cause, hcause, rfl⟩ := Option.map_eq_some_iff.mp hdeclarator
  exact isBare_of_bareCause? hcause

/-- A conversion fails for a missing value. -/
theorem isBare_of_conv_eq_error {source : String} {tree : Cst} {e : SyntaxError}
    (h : conv source tree = .error e) : e.cause.isBare = true := by
  have hheads := headsOf_conv source tree
  rw [h, verdict] at hheads
  split at hheads
  · rename_i e' hfind
    have heq : e = e' := Except.error.inj hheads
    obtain ⟨origin, -, horigin⟩ := List.exists_of_findSome?_eq_some hfind
    cases origin with
    | construct node => exact heq ▸ isBare_of_refusal? horigin
    | declaration => cases horigin
    | declarator => cases horigin
    | segment => cases horigin
  · cases hheads

theorem isBare_fault (fault : Cst.Fault) : fault.cause.isBare = false := by
  rw [Cst.Fault.cause]
  split
  · rfl
  · split
    · rfl
    · rfl

/-- A tree that is marked as faulty is not refused for a missing value. -/
theorem not_isBare_of_faultFailure {source : String} {tree : Cst} {e : SyntaxError}
    (h : faultFailure source tree = .invalid e) : e.cause.isBare = false := by
  simp only [faultFailure] at h
  split at h
  · rename_i hoffset
    cases h
    show SyntaxCause.isBare (Prod.snd _) = false
    split
    · rfl
    · exact isBare_fault _
  · rename_i failure hoffset
    -- A byte offset that has no character offset is no syntax error.
    rw [Context.toChar] at hoffset
    split at hoffset
    · cases hoffset
    · cases hoffset
      cases h

end Ast

/-! ## Verdicts of a scan -/

namespace Scan

open Files (FileTree Path)

section File

variable {parse : Parser} {options : Options} {tree : FileTree} {path : Path} {source : String}

/-- A file that a scan refuses for the faults of its tree. -/
def RefusedByGrammar (parse : Parser) (options : Options) (tree : FileTree) (path : Path) : Prop :=
  ∃ source, readSource tree path = .ok source ∧
    Verdict.ofFile parse options tree path =
      .rejected source (Ast.faultFailure source (parse source))

/-- A file can be read, and its tree has consistent marks. -/
def Checkable (parse : Parser) (tree : FileTree) (path : Path) : Prop :=
  ∃ source, readSource tree path = .ok source ∧ (parse source).FlagsConsistent

/-- A file whose tree has a fault within the reach of the search. -/
def FaultInReach (parse : Parser) (tree : FileTree) (path : Path) : Prop :=
  ∃ source, readSource tree path = .ok source ∧ (parse source).FaultInReach

theorem ofFile_of_error {failure : Ast.Failure} (hread : readSource tree path = .ok source)
    (h : Detection.ofSource options source (parse source) = .error failure) :
    Verdict.ofFile parse options tree path = .rejected source failure := by
  simp only [Verdict.ofFile, hread, h]

theorem ofFile_of_ok {d : Detection} (hread : readSource tree path = .ok source)
    (h : Detection.ofSource options source (parse source) = .ok d) :
    Verdict.ofFile parse options tree path = .detected source d := by
  simp only [Verdict.ofFile, hread, h]

/-- A tree without a mark at its root is not refused for its faults. -/
theorem ofFile_ne_of_unmarked (hread : readSource tree path = .ok source)
    (hmark : ¬(parse source).label.hasError = true) :
    Verdict.ofFile parse options tree path ≠
      .rejected source (Ast.faultFailure source (parse source)) := by
  intro hrefused
  have hdetection := Detection.ofSource_eq options source (parse source)
  rw [if_neg hmark] at hdetection
  cases hconv : Ast.conv source (parse source) with
  | ok nodes =>
    rw [hconv] at hdetection
    rw [ofFile_of_ok hread hdetection] at hrefused
    cases hrefused
  | error e =>
    -- The conversion fails for another cause than the search does.
    rw [hconv] at hdetection
    rw [ofFile_of_error hread hdetection, Verdict.rejected.injEq] at hrefused
    have hbare := Ast.isBare_of_conv_eq_error hconv
    rw [Ast.not_isBare_of_faultFailure hrefused.2.symm] at hbare
    cases hbare

/-- The scan refuses for their faults exactly the trees that are marked at their root. -/
theorem refusedByGrammar_iff (hread : readSource tree path = .ok source) :
    RefusedByGrammar parse options tree path ↔ (parse source).label.hasError = true := by
  constructor
  · rintro ⟨source', hread', hrefused⟩
    rw [hread] at hread'
    obtain rfl : source = source' := Except.ok.inj hread'
    by_contra hmark
    exact ofFile_ne_of_unmarked hread hmark hrefused
  · intro hmark
    have hdetection := Detection.ofSource_eq options source (parse source)
    rw [if_pos hmark] at hdetection
    exact ⟨source, hread, ofFile_of_error hread hdetection⟩

theorem Checkable.refused_of_faultInReach (h : Checkable parse tree path)
    (hreach : FaultInReach parse tree path) (options : Options) :
    RefusedByGrammar parse options tree path := by
  obtain ⟨source, hread, hflags⟩ := h
  obtain ⟨source', hread', hfault⟩ := hreach
  rw [hread] at hread'
  obtain rfl : source = source' := Except.ok.inj hread'
  exact (refusedByGrammar_iff hread).mpr (hfault.hasError hflags)

/-- A file is sound for the check exactly when no fault lies within reach. -/
theorem Checkable.isSound_iff (h : Checkable parse tree path) :
    isSound parse tree path = true ↔ ¬FaultInReach parse tree path := by
  obtain ⟨source, hread, hflags⟩ := h
  have hreach : FaultInReach parse tree path ↔ (parse source).FaultInReach := by
    constructor
    · rintro ⟨source', hread', hfault⟩
      rw [hread] at hread'
      obtain rfl : source = source' := Except.ok.inj hread'
      exact hfault
    · intro hfault
      exact ⟨source, hread, hfault⟩
  have hfound : fileFaults parse tree path = .ok (sourceFaults source (parse source)) := by
    simp only [fileFaults, hread]
  rw [hreach, ← sourceFaults_eq_nil source hflags]
  cases hfaults : sourceFaults source (parse source) with
  | nil => simp [isSound, hfound, hfaults]
  | cons fault rest => simp [isSound, hfound, hfaults]

end File

/-! ## The check -/

section Check

variable (parse : Parser) (env : Environment) (tree : FileTree) (files : List Path)

theorem check_exit_eq_findings :
    (check parse env tree files).exit = exitFindings ↔
      ∃ path ∈ files, isSound parse tree path = false := by
  rw [check]
  split
  · rename_i hsound
    rw [List.all_eq_true] at hsound
    constructor
    · intro hexit
      have hne : exitClean ≠ exitFindings := by decide
      exact absurd hexit hne
    · rintro ⟨path, hpath, hfalse⟩
      rw [hsound path hpath] at hfalse
      cases hfalse
  · rename_i hsound
    rw [List.all_eq_true] at hsound
    constructor
    · intro _
      by_contra hnone
      refine hsound fun path hpath => ?_
      by_contra hfalse
      exact hnone ⟨path, hpath, Bool.eq_false_iff.mpr hfalse⟩
    · intro _
      rfl

theorem join_eq_empty {texts : List String} (h : ∀ text ∈ texts, text = "") :
    String.join texts = "" := by
  induction texts with
  | nil => rfl
  | cons text texts ih =>
    rw [String.join_cons, h text List.mem_cons_self,
      ih fun other hother => h other (List.mem_cons_of_mem _ hother)]
    rfl

theorem out_faultConsole (path : Path) : (faultConsole parse env tree path).out = "" := by
  rw [faultConsole]
  split
  · rfl
  · rfl
  · refine join_eq_empty ?_
    intro text htext
    simp only [List.map_map, List.mem_map] at htext
    obtain ⟨line, -, rfl⟩ := htext
    rfl

/-- What the check prints: faults are logged, so the last line is all that the output
    says about the files. -/
theorem out_check :
    (check parse env tree files).console.out =
      "Parser check mode: Validating parse trees...\n" ++
        if (check parse env tree files).exit = exitFindings then ""
        else "✓ Parser validation PASSED: No ERROR nodes found\n" := by
  have hfiles : String.join ((files.map (faultConsole parse env tree)).map Console.out) = "" := by
    refine join_eq_empty ?_
    intro text htext
    simp only [List.map_map, List.mem_map] at htext
    obtain ⟨path, -, rfl⟩ := htext
    exact out_faultConsole parse env tree path
  simp only [check, Console.join, List.map_append, List.map_cons, List.map_nil, List.cons_append,
    String.join_cons, String.join_append, hfiles, String.join_nil, String.empty_append,
    String.append_empty]
  congr 1
  split
  · rfl
  · rfl

end Check

/-- The check fails exactly when a file has a fault within its reach, and it prints that
    it has passed exactly when it does not fail.  The scan refuses a file by the grammar
    exactly when the root of its tree is marked.  So the check fails only if the scan
    refuses a file, and the two agree on a list of files exactly when, if the scan
    refuses one, not all faults lie too deep. -/
theorem check_fails_iff {parse : Parser} {tree : FileTree} {files : List Path}
    (hfiles : ∀ path ∈ files, Checkable parse tree path) (env : Environment) (options : Options) :
    ((check parse env tree files).exit = exitFindings ↔
        ∃ path ∈ files, FaultInReach parse tree path) ∧
      (check parse env tree files).console.out =
        "Parser check mode: Validating parse trees...\n" ++
          (if (check parse env tree files).exit = exitFindings then ""
          else "✓ Parser validation PASSED: No ERROR nodes found\n") ∧
      (∀ path source, readSource tree path = .ok source →
        (RefusedByGrammar parse options tree path ↔ (parse source).label.hasError = true)) ∧
      ((check parse env tree files).exit = exitFindings →
        ∃ path ∈ files, RefusedByGrammar parse options tree path) ∧
      (((check parse env tree files).exit = exitFindings ↔
          ∃ path ∈ files, RefusedByGrammar parse options tree path) ↔
        ((∃ path ∈ files, RefusedByGrammar parse options tree path) →
          ∃ path ∈ files, FaultInReach parse tree path)) := by
  have hexit : (check parse env tree files).exit = exitFindings ↔
      ∃ path ∈ files, FaultInReach parse tree path := by
    rw [check_exit_eq_findings]
    refine exists_congr fun path => and_congr_right fun hpath => ?_
    rw [Bool.eq_false_iff, ne_eq, (hfiles path hpath).isSound_iff, not_not]
  have hrefused : (∃ path ∈ files, FaultInReach parse tree path) →
      ∃ path ∈ files, RefusedByGrammar parse options tree path := by
    rintro ⟨path, hpath, hreach⟩
    exact ⟨path, hpath, (hfiles path hpath).refused_of_faultInReach hreach options⟩
  refine ⟨hexit, out_check parse env tree files, fun path source => refusedByGrammar_iff,
    fun h => hrefused (hexit.mp h), ?_⟩
  rw [hexit]
  exact ⟨Iff.mpr, fun h => ⟨hrefused, h⟩⟩

/-- A stray character within 199 parentheses. -/
def buriedFaultText : List Char :=
  List.replicate 199 '(' ++ '@' :: List.replicate 199 ')' ++ [';']

/-- The tree of `buriedFaultText`: the fault lies one level deeper than is searched. -/
def buriedFault : Cst :=
  .node ⟨"program", 0, 400, true, false, true, none⟩
    [.node ⟨"expression_statement", 0, 400, true, false, true, none⟩
      [Ast.parenthesized (.node ⟨"ERROR", 199, 200, true, false, true, none⟩ []) 199 0 399,
       .node ⟨";", 399, 400, false, false, false, none⟩ []]]

/-- Two scripts with a stray character each, the first one with `buriedFaultText`. -/
def strayCharacters : FileTree :=
  { entries :=
      [(["a.js"], .file (Text.Utf8.encode buriedFaultText)), (["b.js"], .file [0x23])]
    home := [] }

/-- The trees of the two scripts. -/
def parseStrayCharacters (source : String) : Cst :=
  if source = "#" then
    .node ⟨"program", 0, 1, true, false, true, none⟩
      [.node ⟨"ERROR", 0, 1, true, false, true, none⟩ []]
  else buriedFault

theorem readSource_buried :
    readSource strayCharacters ⟨0, ["a.js"]⟩ = .ok (.ofList buriedFaultText) := by
  have hread : strayCharacters.read ⟨0, ["a.js"]⟩ = .ok (Text.Utf8.encode buriedFaultText) := rfl
  have hdecode : Text.Utf8.decode? (Text.Utf8.encode buriedFaultText) = .ok buriedFaultText := by
    decide +kernel
  have hlines : Text.unifyLineEnds buriedFaultText = buriedFaultText := by decide +kernel
  simp only [readSource, hread, decodeSource, hdecode, hlines]

theorem readSource_stray : readSource strayCharacters ⟨0, ["b.js"]⟩ = .ok "#" := by
  decide +kernel

theorem parseStrayCharacters_buried :
    parseStrayCharacters (.ofList buriedFaultText) = buriedFault :=
  if_neg (by decide +kernel)

theorem checkable_buried : Checkable parseStrayCharacters strayCharacters ⟨0, ["a.js"]⟩ := by
  refine ⟨_, readSource_buried, ?_⟩
  rw [parseStrayCharacters_buried]
  decide +kernel

theorem checkable_stray : Checkable parseStrayCharacters strayCharacters ⟨0, ["b.js"]⟩ :=
  ⟨_, readSource_stray, by decide +kernel⟩

/-- Together with a script whose fault lies within reach, the one with the buried fault
    makes no difference. -/
theorem check_fails_iff_strayCharacters :
    (∀ path ∈ [⟨0, ["a.js"]⟩, ⟨0, ["b.js"]⟩],
        Checkable parseStrayCharacters strayCharacters path) ∧
      (check parseStrayCharacters {} strayCharacters
        [⟨0, ["a.js"]⟩, ⟨0, ["b.js"]⟩]).exit = exitFindings ∧
      ∃ path ∈ [⟨0, ["a.js"]⟩, ⟨0, ["b.js"]⟩],
        RefusedByGrammar parseStrayCharacters {} strayCharacters path := by
  have hfiles : ∀ path ∈ [⟨0, ["a.js"]⟩, ⟨0, ["b.js"]⟩],
      Checkable parseStrayCharacters strayCharacters path :=
    List.forall_mem_cons.mpr ⟨checkable_buried, List.forall_mem_singleton.mpr checkable_stray⟩
  have hreach : FaultInReach parseStrayCharacters strayCharacters ⟨0, ["b.js"]⟩ :=
    ⟨_, readSource_stray, [0], _, rfl, rfl, by decide⟩
  obtain ⟨hexit, -, -, hrefused, -⟩ := check_fails_iff hfiles {} {}
  have hfails := hexit.mpr ⟨_, List.mem_cons_of_mem _ (List.mem_singleton.mpr rfl), hreach⟩
  exact ⟨hfiles, hfails, hrefused hfails⟩

theorem isSound_buried : isSound parseStrayCharacters strayCharacters ⟨0, ["a.js"]⟩ = true := by
  have hnil : sourceFaults (.ofList buriedFaultText) buriedFault = [] := by decide +kernel
  have hfaults : fileFaults parseStrayCharacters strayCharacters ⟨0, ["a.js"]⟩ = .ok [] := by
    simp only [fileFaults, readSource_buried, parseStrayCharacters_buried, hnil]
  rw [isSound, hfaults]

/-- A script can be refused by the grammar and still pass the check: its marks are
    consistent, its root is marked, and its only fault lies too deep. -/
theorem buried_fault_passes_check :
    Checkable parseStrayCharacters strayCharacters ⟨0, ["a.js"]⟩ ∧
      (parseStrayCharacters (.ofList buriedFaultText)).label.hasError = true ∧
      RefusedByGrammar parseStrayCharacters {} strayCharacters ⟨0, ["a.js"]⟩ ∧
      (check parseStrayCharacters {} strayCharacters [⟨0, ["a.js"]⟩]).exit = exitClean ∧
      (check parseStrayCharacters {} strayCharacters [⟨0, ["a.js"]⟩]).console.out =
        "Parser check mode: Validating parse trees...\n" ++
          "✓ Parser validation PASSED: No ERROR nodes found\n" := by
  have hmark : (parseStrayCharacters (.ofList buriedFaultText)).label.hasError = true := by
    rw [parseStrayCharacters_buried]
    rfl
  have hexit : (check parseStrayCharacters {} strayCharacters [⟨0, ["a.js"]⟩]).exit = exitClean := by
    simp only [check, List.all_cons, List.all_nil, isSound_buried, Bool.and_self, if_true]
  refine ⟨checkable_buried, hmark, (refusedByGrammar_iff readSource_buried).mpr hmark, hexit, ?_⟩
  rw [out_check, hexit, if_neg (by decide)]

end Scan

end EsFeatures
