/-
  EsFeatures.Proofs.Evidence

  Every finding has a place in the concrete tree that justifies it, and no two findings
  have the same one.  Places are nodes and the pieces of text of templates; the
  declaration in a loop's head stands at the loop's keyword.
-/
import EsFeatures.Proofs.Findings

namespace EsFeatures

open Ast (Site Origin Converted Makes sites charOffset isKept isSubstitution)

/-! ## Places -/

/-- A place in a concrete tree: a node, or a piece of text of the template at a path. -/
inductive Cst.Place where
  | node (path : List Nat)
  | segment (path : List Nat) (index : Nat)
deriving Repr, DecidableEq

/-- `Justified source tree finding place`: what stands at `place` is a reason for the
    finding. -/
inductive Justified (source : String) (tree : Cst) (finding : Finding) : Cst.Place → Prop
  /-- A construct that shows the feature by itself. -/
  | construct {path : List Nat} {node : Cst} : tree.at? path = some node → isKept node = true →
    node.shown? = some (finding.feature, finding.qualifier) →
    finding.offset = charOffset source node.startByte →
    Justified source tree finding (.node path)
  /-- The keyword of a loop over `in` or `of`. -/
  | keyword {path : List Nat} {i : Nat} {loop keyword : Cst} : tree.at? path = some loop →
    loop.kind = "for_in_statement" → loop.childIndex? "kind" = some i →
    loop.children[i]? = some keyword →
    declared? keyword.kind = some (finding.feature, finding.qualifier) →
    finding.offset = charOffset source keyword.startByte →
    Justified source tree finding (.node (path ++ [i]))
  /-- One of the pieces of text of a template, one more than there are substitutions. -/
  | segment {path : List Nat} {index : Nat} {template : Cst} : tree.at? path = some template →
    template.kind = "template_string" → index ≤ template.children.countP isSubstitution →
    finding.feature = .templateElement → finding.qualifier = .null →
    Justified source tree finding (.segment path index)

/-- The place of a site. -/
def Ast.Site.place (tree : Cst) (site : Site) : Cst.Place :=
  match site.origin with
  | .declaration _ _ =>
    .node (site.path ++ [((tree.at? site.path).bind fun loop => loop.childIndex? "kind").getD 0])
  | .segment index _ _ => .segment site.path index
  | _ => .node site.path

/-- `Shows tree site x`: one of the three ways in which a site of the tree can show
    something. -/
inductive Shows (tree : Cst) : Site → Feature × Scalar → Prop
  | construct {path : List Nat} {node : Cst} {x : Feature × Scalar} : Converted tree path node →
    node.shown? = some x → Shows tree ⟨path, .construct node⟩ x
  | keyword {path : List Nat} {i : Nat} {loop keyword last : Cst} {x : Feature × Scalar} :
    Converted tree path loop → loop.kind = "for_in_statement" →
    loop.childIndex? "kind" = some i → loop.children[i]? = some keyword →
    declared? keyword.kind = some x → Shows tree ⟨path, .declaration keyword last⟩ x
  | segment {path : List Nat} {index : Nat} {start stop : Int} {template : Cst} :
    Converted tree path template → template.kind = "template_string" →
    index ≤ template.children.countP isSubstitution →
    Shows tree ⟨path, .segment index start stop⟩ (.templateElement, .null)

theorem shows_of_mem_sites {tree : Cst} {site : Site} {x : Feature × Scalar}
    (h : site ∈ sites tree) (hx : site.origin.shown? = some x) : Shows tree site x := by
  obtain ⟨node, hconverted, horigin | hmakes⟩ := Ast.mem_sites h
  · obtain ⟨path, origin⟩ := site
    cases horigin
    exact .construct hconverted hx
  · obtain ⟨path, origin⟩ := site
    cases hmakes with
    | declaration hfor hkind _ =>
      obtain ⟨i, hi, hget⟩ := Cst.child?_eq_some hkind
      exact .keyword hconverted hfor hi hget hx
    | declarator => cases hx
    | segment htemplate hindex =>
      cases hx
      exact .segment hconverted htemplate hindex

theorem place_keyword {tree loop keyword last : Cst} {path : List Nat} {i : Nat}
    (hat : tree.at? path = some loop) (hi : loop.childIndex? "kind" = some i) :
    Site.place tree ⟨path, .declaration keyword last⟩ = .node (path ++ [i]) := by
  simp only [Site.place, hat, Option.bind_some, hi, Option.getD_some]

/-- The keyword of a declaration shows nothing by itself. -/
theorem shown?_of_declared? {tree : Cst} {x : Feature × Scalar} (h : declared? tree.kind = some x) :
    tree.shown? = none := by
  rw [declared?] at h
  split at h
  · rename_i hkind
    rcases hkind with hkind | hkind
    · simp [Cst.shown?, hkind]
    · simp [Cst.shown?, hkind]
  · cases h

/-- The node at a loop's keyword. -/
theorem at?_keyword {tree loop keyword : Cst} {path : List Nat} {i : Nat}
    (hat : tree.at? path = some loop) (hget : loop.children[i]? = some keyword) :
    tree.at? (path ++ [i]) = some keyword := by
  rw [Cst.at?_append, hat]
  simp [Cst.at?, hget]

/-- A construct that shows something is not the keyword of a loop that does: it would
    show something both by itself and as a keyword. -/
theorem path_ne_keyword {tree node loop keyword : Cst} {path path' : List Nat} {i : Nat}
    {x x' : Feature × Scalar} (hnode : Converted tree path node) (hx : node.shown? = some x)
    (hloop : Converted tree path' loop) (hget : loop.children[i]? = some keyword)
    (hx' : declared? keyword.kind = some x') : path ≠ path' ++ [i] := by
  intro heq
  have hat := at?_keyword hloop.at? hget
  rw [← heq, hnode.at?, Option.some.injEq] at hat
  rw [hat, shown?_of_declared? hx'] at hx
  cases hx

/-- Sites that show something at the same place are the same. -/
theorem key_eq_of_place_eq {tree : Cst} {site site' : Site} {x x' : Feature × Scalar}
    (h : Shows tree site x) (h' : Shows tree site' x')
    (hplace : site.place tree = site'.place tree) : site.key = site'.key := by
  cases h with
  | construct hnode hx =>
    cases h' with
    | construct hnode' hx' =>
      cases hplace
      rfl
    | keyword hloop hfor hi hget hx' =>
      rw [place_keyword hloop.at? hi] at hplace
      cases hplace
      exact absurd rfl (path_ne_keyword hnode hx hloop hget hx')
    | segment => cases hplace
  | keyword hloop hfor hi hget hx =>
    rw [place_keyword hloop.at? hi] at hplace
    cases h' with
    | construct hnode' hx' =>
      cases hplace
      exact absurd rfl (path_ne_keyword hnode' hx' hloop hget hx)
    | keyword hloop' hfor' hi' hget' hx' =>
      rw [place_keyword hloop'.at? hi', Cst.Place.node.injEq] at hplace
      exact Prod.ext (List.append_inj_left' hplace rfl) rfl
    | segment => cases hplace
  | segment hnode htemplate hindex =>
    cases h' with
    | construct => cases hplace
    | keyword hloop' hfor' hi' hget' hx' =>
      rw [place_keyword hloop'.at? hi'] at hplace
      cases hplace
    | segment =>
      cases hplace
      rfl

/-! ## Findings and their places -/

/-- The sites of a tree that show something. -/
def shownSites (tree : Cst) : List Site :=
  (sites tree).filter fun site => site.origin.shown?.isSome

theorem mem_shownSites {tree : Cst} {site : Site} (h : site ∈ shownSites tree) :
    site ∈ sites tree ∧ ∃ x, site.origin.shown? = some x := by
  obtain ⟨hmem, hsome⟩ := List.mem_filter.mp h
  exact ⟨hmem, Option.isSome_iff_exists.mp hsome⟩

/-- No two sites that show something share a place. -/
theorem nodup_places (tree : Cst) : ((shownSites tree).map (Site.place tree)).Nodup := by
  have hkeys : ((shownSites tree).map Site.key).Nodup :=
    (Ast.nodup_keys tree).sublist (List.filter_sublist.map _)
  rw [List.Nodup, List.pairwise_map] at hkeys ⊢
  refine hkeys.imp_of_mem ?_
  intro site site' hsite hsite' hkey hplace
  obtain ⟨hmem, x, hx⟩ := mem_shownSites hsite
  obtain ⟨hmem', x', hx'⟩ := mem_shownSites hsite'
  exact hkey (key_eq_of_place_eq (shows_of_mem_sites hmem hx) (shows_of_mem_sites hmem' hx') hplace)

/-- What is noted of the sites of a tree is what is noted of those that show
    something. -/
theorem filterMap_finding? (options : Options) (source : String) (tree : Cst) :
    ((sites tree).filterMap (Site.finding? options source)).map some =
      (shownSites tree).map (Site.finding? options source) := by
  rw [shownSites]
  induction sites tree with
  | nil => rfl
  | cons site rest ih =>
    rw [List.filterMap_cons, List.filter_cons, Site.finding?]
    cases hx : site.origin.shown? with
    | none => exact ih
    | some x =>
      simp only [Option.map_some, Option.isSome_some, if_true, List.map_cons, ih, Site.finding?, hx]

section Detected

variable {options : Options} {source : String} {tree : Cst} {d : Detection}

theorem map_some_findings (htree : tree.ClashFree)
    (h : Detection.ofSource options source tree = .ok d) :
    d.findings.map some =
      ((shownSites tree).take options.resultLimit.toNat).map (Site.finding? options source) := by
  rw [Detection.findings_ofSource htree h, List.map_take, filterMap_finding?, List.map_take]

/-- There are as many findings as sites that show something, up to the limit. -/
theorem length_findings (htree : tree.ClashFree)
    (h : Detection.ofSource options source tree = .ok d) :
    d.findings.length = min options.resultLimit.toNat (shownSites tree).length := by
  have hlength := congrArg List.length (map_some_findings htree h)
  simpa using hlength

theorem length_findings_le (htree : tree.ClashFree)
    (h : Detection.ofSource options source tree = .ok d) :
    d.findings.length ≤ (shownSites tree).length := by
  rw [length_findings htree h]
  exact Nat.min_le_right _ _

/-- The site of a finding. -/
theorem finding?_get (htree : tree.ClashFree)
    (h : Detection.ofSource options source tree = .ok d) (i : Fin d.findings.length) :
    ((shownSites tree).get (i.castLE (length_findings_le htree h))).finding? options source =
      some (d.findings.get i) := by
  -- Finding and site stand at the same index of two lists that agree up to the limit.
  have hmap := congrArg (fun xs => xs[i.val]?) (map_some_findings htree h)
  have hlt : i.val < options.resultLimit.toNat := by
    have hlength := length_findings htree h
    have := i.isLt
    omega
  have hlt' : i.val < (shownSites tree).length :=
    Nat.lt_of_lt_of_le i.isLt (length_findings_le htree h)
  simp only [List.getElem?_map, List.getElem?_take_of_lt hlt, List.getElem?_eq_getElem i.isLt,
    List.getElem?_eq_getElem hlt', Option.map_some, Option.some.injEq] at hmap
  exact hmap.symm

/-- The place that justifies a finding. -/
def placeOf (htree : tree.ClashFree) (h : Detection.ofSource options source tree = .ok d)
    (i : Fin d.findings.length) : Cst.Place :=
  ((shownSites tree).get (i.castLE (length_findings_le htree h))).place tree

theorem placeOf_injective (htree : tree.ClashFree)
    (h : Detection.ofSource options source tree = .ok d) :
    Function.Injective (placeOf htree h) := by
  intro i j hij
  have hle := length_findings_le htree h
  have hi : i.val < ((shownSites tree).map (Site.place tree)).length := by
    rw [List.length_map]
    exact Nat.lt_of_lt_of_le i.isLt hle
  have hj : j.val < ((shownSites tree).map (Site.place tree)).length := by
    rw [List.length_map]
    exact Nat.lt_of_lt_of_le j.isLt hle
  have hget : ((shownSites tree).map (Site.place tree))[i.val] =
      ((shownSites tree).map (Site.place tree))[j.val] := by
    rw [List.getElem_map, List.getElem_map]
    exact hij
  exact Fin.ext ((nodup_places tree).getElem_inj_iff.mp hget)

/-- The finding that is noted of a site has the site's feature, and the offset at which
    the site's node starts. -/
theorem finding?_eq_some {site : Site} {x : Feature × Scalar} {finding : Finding}
    (hx : site.origin.shown? = some x) (h : site.finding? options source = some finding) :
    finding.feature = x.1 ∧ finding.qualifier = x.2 ∧
      finding.offset = (site.origin.head source).start.getD Collector.unknownOffset := by
  rw [Site.finding?, hx] at h
  cases h
  exact ⟨rfl, rfl, rfl⟩

theorem justified_place {site : Site} {x : Feature × Scalar} {finding : Finding}
    (hshows : Shows tree site x) (hx : site.origin.shown? = some x)
    (h : site.finding? options source = some finding) :
    Justified source tree finding (site.place tree) := by
  obtain ⟨hfeature, hqualifier, hoffset⟩ := finding?_eq_some hx h
  have hpair : some x = some (finding.feature, finding.qualifier) := by
    rw [hfeature, hqualifier]
  cases hshows with
  | construct hnode hshown =>
    exact .construct hnode.at? hnode.isKept (hshown.trans hpair) hoffset
  | keyword hloop hfor hi hget hdeclared =>
    rw [place_keyword hloop.at? hi]
    exact .keyword hloop.at? hfor hi hget (hdeclared.trans hpair) hoffset
  | segment htemplate hkind hindex =>
    exact .segment htemplate.at? hkind hindex hfeature hqualifier

/-- The place of a finding justifies it. -/
theorem justified_placeOf (htree : tree.ClashFree)
    (h : Detection.ofSource options source tree = .ok d) (i : Fin d.findings.length) :
    Justified source tree (d.findings.get i) (placeOf htree h i) := by
  obtain ⟨hmem, x, hx⟩ := mem_shownSites
    (List.get_mem (shownSites tree) (i.castLE (length_findings_le htree h)))
  exact justified_place (shows_of_mem_sites hmem hx) hx (finding?_get htree h i)

end Detected

/-- Every finding of a detection is justified by a place of the concrete tree, and no
    two by the same one. -/
theorem findings_justified {options : Options} {source : String} {tree : Cst} {d : Detection}
    (htree : tree.ClashFree) (h : Detection.ofSource options source tree = .ok d) :
    ∃ place : Fin d.findings.length → Cst.Place, Function.Injective place ∧
      ∀ i, Justified source tree (d.findings.get i) (place i) :=
  ⟨placeOf htree h, placeOf_injective htree h, justified_placeOf htree h⟩

/-- A loop over a template with an arrow function in it. -/
def loopOverTemplateSource : String :=
  "for (const x of `a$\x7b() => x\x7db`) ;"

/-- The tree of `loopOverTemplateSource`. -/
def loopOverTemplate : Cst :=
  .node ⟨"program", 0, 33, true, false, false, none⟩
    [.node ⟨"for_in_statement", 0, 33, true, false, false, none⟩
      [.node ⟨"for", 0, 3, false, false, false, none⟩ [],
       .node ⟨"const", 5, 10, false, false, false, some "kind"⟩ [],
       .node ⟨"identifier", 11, 12, true, false, false, some "left"⟩ [],
       .node ⟨"of", 13, 15, false, false, false, some "operator"⟩ [],
       .node ⟨"template_string", 16, 30, true, false, false, some "right"⟩
        [.node ⟨"string_fragment", 17, 18, true, false, false, none⟩ [],
         .node ⟨"template_substitution", 18, 28, true, false, false, none⟩
          [.node ⟨"arrow_function", 20, 27, true, false, false, none⟩
            [.node ⟨"formal_parameters", 20, 22, true, false, false, some "parameters"⟩ [],
             .node ⟨"identifier", 26, 27, true, false, false, some "body"⟩ []]],
         .node ⟨"string_fragment", 28, 29, true, false, false, none⟩ []],
       .node ⟨"empty_statement", 32, 33, true, false, false, some "body"⟩ []]]

/-- The findings in `loopOverTemplate`: the loop, its keyword, and the two pieces of
    text around an arrow function. -/
def loopOverTemplateFindings : List Finding :=
  [⟨.forOfStatement, "for...of loop", .null, loopOverTemplateSource, 0⟩,
   ⟨.variableDeclaration, "const/let declaration", .text "const", "const x", 5⟩,
   ⟨.templateElement, "template literal", .null, "a", 17⟩,
   ⟨.arrowFunction, "arrow function", .null, "() => x", 20⟩,
   ⟨.templateElement, "template literal", .null, "b", 28⟩]

theorem ofSource_loopOverTemplate :
    Detection.ofSource { resultLimit := 9 } loopOverTemplateSource loopOverTemplate =
      .ok { findings := loopOverTemplateFindings, visited := 12, kind := "Program" } := by
  rw [Detection.ofSource_eq]
  simp only [Detection.ofProgram_eq]
  decide +kernel

theorem clashFree_loopOverTemplate : loopOverTemplate.ClashFree := by
  decide +kernel

theorem findings_justified_loopOverTemplate :
    loopOverTemplate.ClashFree ∧
      ∃ place : Fin loopOverTemplateFindings.length → Cst.Place, Function.Injective place ∧
        ∀ i, Justified loopOverTemplateSource loopOverTemplate
          (loopOverTemplateFindings.get i) (place i) :=
  ⟨clashFree_loopOverTemplate,
    findings_justified clashFree_loopOverTemplate ofSource_loopOverTemplate⟩

end EsFeatures
