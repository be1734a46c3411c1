/-
  EsFeatures.Proofs.Snippets

  Findings as evidence.  The snippet of a node is the source from its offset on, up to its
  end or to the longest snippet, whichever comes first.  Since no node begins before the
  source, nor ends before it when the tree lies in the source, a snippet is never longer
  than was asked for, and reading the source at the offset of a finding gives it back.
-/
import Mathlib.Data.List.Infix
import EsFeatures.Proofs.NodeOffsets

namespace EsFeatures

/-! ## Slices -/

namespace Text

section Slice

variable {α : Type} (items : List α) {start stop : Int}

theorem length_slice (start stop : Int) :
    (slice items start stop).length = bound items.length stop - bound items.length start := by
  have hle := bound_le items.length stop
  rw [slice, List.length_drop, List.length_take, Nat.min_eq_left hle]

theorem length_slice_le {size : Nat} (hstart : 0 ≤ start) (hstop : 0 ≤ stop)
    (hle : stop ≤ start + size) : (slice items start stop).length ≤ size := by
  rw [length_slice, bound_of_nonneg items.length hstart, bound_of_nonneg items.length hstop]
  omega

/-- A slice is what its length cuts out at its start. -/
theorem slice_add_length (hstart : 0 ≤ start) :
    slice items start (start + (slice items start stop).length) = slice items start stop := by
  have hlength := length_slice items start stop
  have hfront := bound_of_nonneg items.length hstart
  have hback := bound_le items.length stop
  by_cases hempty : bound items.length stop ≤ bound items.length start
  · -- Both are empty, whether the bounds cross or the start lies behind the items.
    have hnil : slice items start stop = [] := List.length_eq_zero_iff.mp (by omega)
    rw [hnil, List.length_nil, Int.natCast_zero, Int.add_zero]
    refine List.length_eq_zero_iff.mp ?_
    rw [length_slice]
    omega
  · -- The slice is not empty, so its start lies within the items.
    have hend : start + ((slice items start stop).length : Int) = (bound items.length stop : Nat) := by
      omega
    rw [hend, slice, bound_natCast, Nat.min_eq_left hback]
    rfl

end Slice

end Text

/-! ## Values of a request -/

namespace Options

/-- The default of a setting. -/
def Key.default : Key → Int
  | .resultLimit => ({} : Options).resultLimit
  | .snippetMaxLength => ({} : Options).snippetMaxLength

/-- The value of a setting, or a default. -/
def Setting.valueD (default : Int) : Setting → Int
  | .integer value => value
  | _ => default

/-- The setting for a key in a request. -/
def Request.setting (key : Key) : Request → Setting
  | .defaults => .unset
  | .mapping entries => (entries.lookup key.name).getD .unset
  | .record limit size =>
    match key with
    | .resultLimit => limit
    | .snippetMaxLength => size

/-- The value that a request gives to a key, defaults included. -/
def Request.value (request : Request) (key : Key) : Int :=
  (request.setting key).valueD key.default

theorem checkSetting_eq_ok {key : Key} {default value : Int} {setting : Setting}
    (h : checkSetting key default setting = .ok value) : value = setting.valueD default := by
  cases setting with
  | unset => exact (Except.ok.inj h).symm
  | integer value => exact (Except.ok.inj h).symm
  | other type => cases h

theorem ofSettings_eq_ok {limit size : Setting} {options : Options}
    (h : ofSettings limit size = .ok options) :
    options.resultLimit = limit.valueD (Key.default .resultLimit) ∧
      options.snippetMaxLength = max (size.valueD (Key.default .snippetMaxLength)) 0 := by
  rw [ofSettings] at h
  cases hlimit : checkSetting .resultLimit ({} : Options).resultLimit limit with
  | error e =>
    rw [hlimit] at h
    cases h
  | ok limit' =>
    cases hsize : checkSetting .snippetMaxLength ({} : Options).snippetMaxLength size with
    | error e =>
      rw [hlimit, hsize] at h
      cases h
    | ok size' =>
      rw [hlimit, hsize] at h
      obtain rfl := (Except.ok.inj h).symm
      obtain rfl := checkSetting_eq_ok hlimit
      obtain rfl := checkSetting_eq_ok hsize
      exact ⟨rfl, rfl⟩

/-- The options of a request have its values, but for a negative length. -/
theorem ofRequest_eq_ok {request : Request} {options : Options}
    (h : ofRequest request = .ok options) :
    options.resultLimit = request.value .resultLimit ∧
      options.snippetMaxLength = (request.value .snippetMaxLength).toNat := by
  rw [Int.toNat_eq_max]
  cases request with
  | defaults =>
    cases h
    exact ⟨rfl, rfl⟩
  | mapping entries =>
    rw [ofRequest] at h
    split at h
    · exact ofSettings_eq_ok h
    · cases h
  | record limit size => exact ofSettings_eq_ok h

end Options

/-! ## Snippets -/

section Snippet

variable {c : Collector} {head : Ast.Head} {start stop : Int}

theorem Collector.snippet_eq (hstart : head.start = some start) (hstop : head.stop = some stop) :
    c.snippet head =
      Text.substring c.source start (min stop (start + c.options.snippetMaxLength)) := by
  rw [snippet_eq_getD, hstart, hstop, Option.bind_some, Option.map_some, Option.getD_some]

theorem Collector.length_snippet_le {size : Nat} (hstart : head.start = some start)
    (hstop : head.stop = some stop) (hsize : c.options.snippetMaxLength = size)
    (hopens : 0 ≤ start) (hcloses : 0 ≤ stop) : (c.snippet head).length ≤ size := by
  rw [snippet_eq hstart hstop, Text.substring, String.length_ofList, hsize]
  exact Text.length_slice_le _ hopens (by omega) (by omega)

/-- The source at the offset of a node reads as its snippet. -/
theorem Collector.substring_snippet (hstart : head.start = some start)
    (hstop : head.stop = some stop) (hopens : 0 ≤ start) :
    Text.substring c.source start (start + (c.snippet head).length) = c.snippet head := by
  rw [snippet_eq hstart hstop, Text.substring, Text.substring, String.length_ofList,
    Text.slice_add_length _ hopens]

end Snippet

/-- A finding that lies in its source, is at most `size` characters long, and reads as
    the source does at its offset. -/
structure Finding.Evidence (source : String) (size : Nat) (f : Finding) : Prop where
  inside : 0 ≤ f.offset ∧ f.offset ≤ source.length
  short : f.snippet.length ≤ size
  genuine : Text.substring source f.offset (f.offset + f.snippet.length) = f.snippet

/-- What is noted of a site of a tree that lies in its source is evidence. -/
theorem evidence_of_mem_sites {options : Options} {source : String} {tree : Cst} {size : Nat}
    (htree : tree.LiesInSource source) (hsize : options.snippetMaxLength = size)
    {site : Ast.Site} (hsite : site ∈ Ast.sites tree) (feature : Feature) (qualifier : Scalar) :
    (Collector.finding { source, options } feature (site.origin.head source) qualifier).Evidence
      source size := by
  obtain ⟨hopens, hcloses⟩ := Ast.bytes_of_mem_sites hsite
  have hstart := site.origin.start_head source
  have hstop := site.origin.stop_head source
  have hlo := Ast.charOffset_nonneg source hopens.nonneg
  have hhi := Ast.charOffset_le_length source hopens.nonneg (hopens.le_byteLength htree)
  have hend := Ast.charOffset_nonneg source (hcloses.nonneg htree)
  have hoffset : (Collector.finding { source, options } feature (site.origin.head source)
      qualifier).offset = Ast.charOffset source site.origin.bytes.1 := by
    rw [Collector.finding, hstart, Option.getD_some]
  constructor
  · rw [hoffset]
    exact ⟨hlo, hhi⟩
  · exact Collector.length_snippet_le (c := { source, options }) hstart hstop hsize hlo hend
  · rw [hoffset]
    exact Collector.substring_snippet (c := { source, options }) hstart hstop hlo

/-- A detection returns no more findings than were asked for, and all of them are
    evidence: they lie in the source, are no longer than was asked for, and can be read
    in it. -/
theorem findings_are_evidence {request : Options.Request} {options : Options} {source : String}
    {tree : Cst} {d : Detection} (hrequest : Options.ofRequest request = .ok options)
    (htree : tree.LiesInSource source) (h : Detection.ofSource options source tree = .ok d) :
    d.findings.length ≤ (request.value .resultLimit).toNat ∧
      ∀ f ∈ d.findings, f.Evidence source (request.value .snippetMaxLength).toNat := by
  obtain ⟨hlimit, hsize⟩ := Options.ofRequest_eq_ok hrequest
  obtain ⟨program, hbuild, rfl⟩ := Detection.ofSource_eq_ok h
  rw [Detection.findings_ofProgram, hlimit]
  constructor
  · rw [List.length_map]
    exact List.length_take_le _ _
  · intro f hf
    obtain ⟨x, hx, rfl⟩ := List.mem_map.mp hf
    obtain ⟨site, hsite, hhead⟩ :=
      Ast.exists_site_of_mem_shownHeads hbuild (List.mem_of_mem_take hx)
    rw [hhead]
    exact evidence_of_mem_sites htree hsize hsite _ _

/-- An arrow function to a template, with characters of two bytes. -/
def arrowToTemplateSource : String :=
  "é => `ü$\x7bé\x7d`"

/-- The tree of `arrowToTemplateSource`. -/
def arrowToTemplate : Cst :=
  .node ⟨"program", 0, 15, true, false, false, none⟩
    [.node ⟨"expression_statement", 0, 15, true, false, false, none⟩
      [.node ⟨"arrow_function", 0, 15, true, false, false, none⟩
        [.node ⟨"identifier", 0, 2, true, false, false, some "parameter"⟩ [],
         .node ⟨"=>", 3, 5, false, false, false, none⟩ [],
         .node ⟨"template_string", 6, 15, true, false, false, some "body"⟩
          [.node ⟨"string_fragment", 7, 9, true, false, false, none⟩ [],
           .node ⟨"template_substitution", 9, 14, true, false, false, none⟩
            [.node ⟨"identifier", 11, 13, true, false, false, none⟩ []]]]]]

/-- The first findings in `arrowToTemplate`, in four characters each. -/
def arrowToTemplateFindings : List Finding :=
  [⟨.arrowFunction, "arrow function", .null, "é =>", 0⟩,
   ⟨.templateElement, "template literal", .null, "ü", 6⟩]

/-- A request for as many findings as there are by default, and short snippets. -/
def shortRequest : Options.Request :=
  .mapping [("snippet_max_length", .integer 4), ("result_limit", .unset)]

theorem ofRequest_shortRequest :
    Options.ofRequest shortRequest = .ok { snippetMaxLength := 4 } := by
  decide +kernel

theorem ofSource_arrowToTemplate :
    Detection.ofSource { snippetMaxLength := 4 } arrowToTemplateSource arrowToTemplate =
      .ok { findings := arrowToTemplateFindings, visited := 8, kind := "Program" } := by
  rw [Detection.ofSource_eq]
  simp only [Detection.ofProgram_eq]
  decide +kernel

theorem liesInSource_arrowToTemplate : arrowToTemplate.LiesInSource arrowToTemplateSource := by
  decide +kernel

theorem findings_are_evidence_arrowToTemplate :
    arrowToTemplate.LiesInSource arrowToTemplateSource ∧ arrowToTemplateFindings.length ≤ 2 ∧
      ∀ f ∈ arrowToTemplateFindings, f.Evidence arrowToTemplateSource 4 :=
  ⟨liesInSource_arrowToTemplate, findings_are_evidence ofRequest_shortRequest
    liesInSource_arrowToTemplate ofSource_arrowToTemplate⟩

end EsFeatures
