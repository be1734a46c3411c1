/-
  EsFeatures.Proofs.Findings

  The findings of a detection, read off the concrete tree.  `shown?` says what a
  construct shows by its own kind, tokens and fields; `findings_ofSource` says that the
  findings are what the sites of the tree show, in order, up to the limit.
-/
import EsFeatures.Detection
import EsFeatures.Proofs.Provenance
import EsFeatures.Proofs.WorkStack

namespace EsFeatures

/-! ## What a head shows -/

/-- The feature that the standard rules find on a node with the given head, and what is
    noted with it. -/
def Ast.Head.shown? (head : Ast.Head) : Option (Feature × Scalar) :=
  (standardRules.match? (.node head [])).map fun found => (found.feature, found.qualifier)

/-- The standard rules look at heads only. -/
theorem standardRules_congr {kind : String} {rule : Rule}
    (h : standardRules.lookup kind = some rule) (node node' : Ast) (hhead : node.head = node'.head) :
    rule.guard node = rule.guard node' ∧ rule.qualifier node = rule.qualifier node' := by
  have hget : ∀ name, node.get name = node'.get name := by
    intro name
    rw [Ast.get, Ast.get, hhead]
  have hmem : rule ∈ standardRules.map Prod.snd := by
    rw [List.lookup_eq_some_iff] at h
    obtain ⟨before, after, heq, -⟩ := h
    rw [heq]
    simp
  simp only [standardRules, List.map_cons, List.map_nil, List.mem_cons, List.not_mem_nil,
    or_false] at hmem
  rcases hmem with rfl | rfl | rfl | rfl | rfl | rfl | rfl | rfl | rfl | rfl
  all_goals simp [Rule.isBlockScoped, Rule.declarationKind, Rule.isAsync, hget]

theorem match?_standardRules (node : Ast) :
    standardRules.match? node = node.head.shown?.map fun x => ⟨x.1, node, x.2⟩ := by
  rw [Ast.Head.shown?, RuleTable.match?, RuleTable.match?]
  have hkind : (Ast.node node.head []).kind = node.kind := rfl
  rw [hkind]
  cases hlookup : standardRules.lookup node.kind with
  | none => rfl
  | some rule =>
    have hcongr := standardRules_congr hlookup node (.node node.head []) rfl
    simp only [← hcongr.1, ← hcongr.2]
    split
    · rfl
    · rfl

/-! ## What a construct shows -/

/-- What a declaration with the given keyword shows. -/
def declared? (keyword : String) : Option (Feature × Scalar) :=
  if keyword = "const" ∨ keyword = "let" then some (.variableDeclaration, .text keyword) else none

/-- The feature that a construct shows, with its qualifier. -/
def Cst.shown? (tree : Cst) : Option (Feature × Scalar) :=
  match tree.kind with
  | "arrow_function" => some (.arrowFunction, .null)
  | "await_expression" => some (.awaitExpression, .null)
  | "yield_expression" => some (.yieldExpression, .null)
  | "class_declaration" => some (.classDeclaration, .null)
  | "spread_element" => some (.spreadElement, .null)
  | "rest_pattern" => some (.restElement, .null)
  | "lexical_declaration" => declared? (Ast.keywordOf tree)
  | "for_in_statement" => if Ast.isForOf tree then some (.forOfStatement, .null) else none
  | "function_declaration" => if tree.hasToken "async" then some (.asyncFunction, .null) else none
  | "generator_function_declaration" =>
    if tree.hasToken "async" then some (.asyncFunction, .null) else none
  | _ => none

/-- Concrete kinds whose nodes are given a shape of their own. -/
def Ast.shapedKinds : List String :=
  ["lexical_declaration", "variable_declaration", "function_declaration",
   "generator_function_declaration", "arrow_function", "function_expression", "function",
   "generator_function", "method_definition", "yield_expression", "for_in_statement",
   "template_string"]

/-- Whether a concrete kind has a shape or a name of its own, or else one of which no
    rule speaks. -/
def Ast.isDistinct (kind : String) : Bool :=
  shapedKinds.contains kind || (kindNames.lookup kind).isSome ||
    (standardRules.lookup (pascalCase kind)).isNone

/-- No kind in a tree is by accident named like one that a rule speaks of. -/
def Cst.ClashFree (tree : Cst) : Prop :=
  ∀ path node, tree.at? path = some node → Ast.isDistinct node.kind = true

instance : DecidablePred Cst.ClashFree := fun tree =>
  decidable_of_iff (tree.every fun node => Ast.isDistinct node.kind) Cst.every_iff

namespace Ast

theorem shown?_of_attrs (source : String) (kind : String) (start stop : Int)
    (attrs : List (String × Scalar)) {rule : Rule} (h : standardRules.lookup kind = some rule) :
    (spanHead source kind start stop attrs).shown? =
      if rule.guard (.node (spanHead source kind start stop attrs) []) then
        some (rule.feature, rule.qualifier (.node (spanHead source kind start stop attrs) []))
      else none := by
  have hkind : (Ast.node (spanHead source kind start stop attrs) []).kind = kind := rfl
  rw [Head.shown?, RuleTable.match?, hkind, h]
  simp only
  split
  · rfl
  · rfl

/-- A kind with a rule that counts all nodes. -/
theorem shown?_of_plain (source : String) {kind : String} (start stop : Int)
    (attrs : List (String × Scalar)) (feature : Feature)
    (h : standardRules.lookup kind = some { feature }) :
    (spanHead source kind start stop attrs).shown? = some (feature, .null) := by
  rw [shown?_of_attrs source kind start stop attrs h]
  rfl

/-- A kind without a rule. -/
theorem shown?_of_lookup_none (source : String) {kind : String} (start stop : Int)
    (attrs : List (String × Scalar)) (h : standardRules.lookup kind = none) :
    (spanHead source kind start stop attrs).shown? = none := by
  have hkind : (Ast.node (spanHead source kind start stop attrs) []).kind = kind := rfl
  rw [Head.shown?, RuleTable.match?, hkind, h]
  rfl

theorem shown?_declaration (source keyword : String) (start stop : Int) :
    (spanHead source "VariableDeclaration" start stop [("kind", .text keyword)]).shown? =
      declared? keyword := by
  have hget : ∀ children, (Ast.node (spanHead source "VariableDeclaration" start stop
      [("kind", .text keyword)]) children).get "kind" = .text keyword := fun _ => rfl
  rw [shown?_of_attrs source _ _ _ _ rfl]
  simp only [Rule.isBlockScoped, Rule.declarationKind, hget, declared?, beq_iff_eq, Bool.or_eq_true,
    Scalar.text.injEq]

theorem shown?_function (source : String) (tree : Cst) (generator : Bool) :
    (spanHead source "FunctionDeclaration" tree.startByte tree.endByte
        [("generator", .flag generator), asyncAttr tree]).shown? =
      if tree.hasToken "async" then some (.asyncFunction, .null) else none := by
  have hget : ∀ children, (Ast.node (spanHead source "FunctionDeclaration" tree.startByte tree.endByte
      [("generator", .flag generator), asyncAttr tree]) children).get "async" =
        .flag (tree.hasToken "async") := fun _ => rfl
  rw [shown?_of_attrs source _ _ _ _ rfl]
  simp only [Rule.isAsync, hget, Scalar.isSet]

/-- A construct that keeps its shape shows a feature by its name alone. -/
theorem shown?_kindName (source : String) {tree : Cst}
    (hshaped : shapedKinds.contains tree.kind = false) (h : isDistinct tree.kind = true) :
    (spanHead source (kindName tree.kind) tree.startByte tree.endByte []).shown? = tree.shown? := by
  rw [kindName]
  cases hlookup : kindNames.lookup tree.kind with
  | none =>
    have hrule : standardRules.lookup (pascalCase tree.kind) = none := by
      rw [isDistinct, hshaped, hlookup] at h
      simpa using h
    rw [Option.getD_none, shown?_of_lookup_none source _ _ _ hrule]
    unfold Cst.shown?
    -- A kind that shows something has a shape or a name of its own.
    split
    all_goals first
      | rfl
      | (rename_i hkind
         rw [hkind] at hshaped hlookup
         first
           | exact absurd hshaped (by decide)
           | exact absurd hlookup (by decide))
  | some name =>
    rw [Option.getD_some]
    obtain ⟨before, after, heq, -⟩ := List.lookup_eq_some_iff.mp hlookup
    have hmem : (tree.kind, name) ∈ kindNames := by
      rw [heq]
      simp
    -- One case for each name of the table: there is a plain rule for it, or none.
    simp only [kindNames, List.mem_cons, List.not_mem_nil, or_false, Prod.mk.injEq] at hmem
    unfold Cst.shown?
    rcases hmem with h | h | h | h | h | h | h | h | h | h | h | h | h | h | h | h | h | h | h | h |
      h | h | h | h | h | h
    all_goals
      obtain ⟨hkind, rfl⟩ := h
      simp only [hkind]
      first
        | exact shown?_of_lookup_none source _ _ _ rfl
        | exact shown?_of_plain source _ _ _ _ rfl

/-- The node of a construct shows what the construct shows. -/
theorem shown?_headOf (source : String) {tree : Cst} (h : isDistinct tree.kind = true) :
    (headOf source tree).shown? = tree.shown? := by
  unfold headOf shapeOf
  split
  · rename_i hkind
    simp only [Cst.shown?, hkind]
    exact shown?_declaration source (keywordOf tree) tree.startByte tree.endByte
  · rename_i hkind
    simp only [Cst.shown?, hkind]
    exact shown?_declaration source "var" tree.startByte tree.endByte
  · rename_i hkind
    simp only [Cst.shown?, hkind]
    exact shown?_function source tree false
  · rename_i hkind
    simp only [Cst.shown?, hkind]
    exact shown?_function source tree true
  · rename_i hkind
    simp only [Cst.shown?, hkind]
    exact shown?_of_plain source _ _ _ .arrowFunction rfl
  -- Function expressions, generators and methods have a shape but no rule.
  iterate 4
    · rename_i hkind
      simp only [Cst.shown?, hkind]
      exact shown?_of_lookup_none source _ _ _ rfl
  · rename_i hkind
    simp only [Cst.shown?, hkind]
    exact shown?_of_plain source _ _ _ .yieldExpression rfl
  · rename_i hkind
    simp only [Cst.shown?, hkind]
    split
    · exact shown?_of_plain source _ _ _ .forOfStatement rfl
    · exact shown?_of_lookup_none source _ _ _ rfl
  · rename_i hkind
    simp only [Cst.shown?, hkind]
    exact shown?_of_lookup_none source _ _ _ rfl
  · rename_i h₁ h₂ h₃ h₄ h₅ h₆ h₇ h₈ h₉ h₁₀ h₁₁ h₁₂
    have hshaped : shapedKinds.contains tree.kind = false := by
      simpa [shapedKinds] using ⟨h₁, h₂, h₃, h₄, h₅, h₆, h₇, h₈, h₉, h₁₀, h₁₁, h₁₂⟩
    exact shown?_kindName source hshaped h

/-! ## What a site shows -/

/-- What the node that is made from an origin shows. -/
def Origin.shown? : Origin → Option (Feature × Scalar)
  | .construct tree => tree.shown?
  | .declaration keyword _ => declared? keyword.kind
  | .declarator _ _ => none
  | .segment _ _ _ => some (.templateElement, .null)

theorem shown?_head (source : String) (origin : Origin)
    (h : ∀ tree, origin = .construct tree → isDistinct tree.kind = true) :
    (origin.head source).shown? = origin.shown? := by
  cases origin with
  | construct tree => exact shown?_headOf source (h tree rfl)
  | declaration keyword last =>
    exact shown?_declaration source keyword.kind keyword.startByte last.endByte
  | declarator left last => exact shown?_of_lookup_none source _ _ _ rfl
  | segment index start stop => exact shown?_of_plain source _ _ _ .templateElement rfl

/-- What is noted of a node with the given head. -/
def Head.finding? (options : Options) (source : String) (head : Head) : Option Finding :=
  head.shown?.map fun x => Collector.finding { source, options } x.1 head x.2

theorem Head.offset_of_finding?_eq_some {options : Options} {source : String} {head : Head}
    {f : Finding} (h : head.finding? options source = some f) :
    f.offset = head.start.getD Collector.unknownOffset := by
  obtain ⟨x, -, rfl⟩ := Option.map_eq_some_iff.mp h
  rfl

/-- What is noted of a site. -/
def Site.finding? (options : Options) (source : String) (site : Site) : Option Finding :=
  site.origin.shown?.map fun x =>
    Collector.finding { source, options } x.1 (site.origin.head source) x.2

theorem finding?_head {tree : Cst} (htree : tree.ClashFree) (options : Options) (source : String)
    {site : Site} (h : site ∈ sites tree) :
    (site.origin.head source).finding? options source = site.finding? options source := by
  rw [Head.finding?, Site.finding?, shown?_head source site.origin]
  intro t ht
  exact htree site.path t (converted_of_mem_sites h ht).at?

/-- What is noted of a list of nodes depends on their heads. -/
theorem map_findingOf_match? (options : Options) (source : String) (nodes : List Ast) :
    (nodes.filterMap standardRules.match?).map (Collector.findingOf { source, options }) =
      (nodes.map Ast.head).filterMap (Head.finding? options source) := by
  rw [List.map_filterMap, List.filterMap_map]
  apply List.filterMap_congr
  intro node _
  rw [match?_standardRules, Option.map_map]
  rfl

/-- A tree becomes one node, or none. -/
theorem conv_eq_ok {source : String} {tree : Cst} {nodes : List Ast}
    (h : conv source tree = .ok nodes) : nodes = [] ∧ sites tree = [] ∨ ∃ node, nodes = [node] := by
  cases hkept : isKept tree with
  | false =>
    rw [conv_of_not_isKept hkept] at h
    cases h
    exact Or.inl ⟨rfl, sites_of_not_isKept hkept⟩
  | true =>
    obtain ⟨-, below, -, rfl⟩ := (conv_eq_ok_iff hkept).mp h
    exact Or.inr ⟨_, rfl⟩

/-- A conversion that succeeds makes the nodes of all sites, none of which is
    refused. -/
theorem heads_of_conv_eq_ok {source : String} {tree : Cst} {nodes : List Ast}
    (h : conv source tree = .ok nodes) :
    (preorders nodes).map Ast.head = (sites tree).map fun site => site.origin.head source := by
  have hheads := headsOf_conv source tree
  rw [h, verdict] at hheads
  split at hheads
  · cases hheads
  · rw [List.map_map] at hheads
    exact Except.ok.inj hheads

/-- The program that comes of a tree is what its root is converted to, if anything. -/
theorem build_eq_ok {source : String} {tree : Cst} {program : Ast}
    (h : build source tree = .ok program) :
    program = emptyProgram source ∨ conv source tree = .ok [program] := by
  rw [build_eq, convert] at h
  cases hconv : conv source tree with
  | error e =>
    rw [hconv] at h
    cases h
  | ok nodes =>
    rw [hconv] at h
    obtain rfl := Except.ok.inj h
    rcases conv_eq_ok hconv with ⟨rfl, -⟩ | ⟨node, rfl⟩
    · exact Or.inl rfl
    · exact Or.inr rfl

/-- The program that comes of a construct is its node. -/
theorem build_eq_ok_iff {source : String} {tree : Cst} {program : Ast} (h : isKept tree = true) :
    build source tree = .ok program ↔ conv source tree = .ok [program] := by
  rw [build_eq, convert]
  constructor
  · intro hbuild
    cases hconv : conv source tree with
    | error e =>
      rw [hconv] at hbuild
      cases hbuild
    | ok nodes =>
      obtain ⟨-, below, -, rfl⟩ := (conv_eq_ok_iff h).mp hconv
      rw [hconv] at hbuild
      cases hbuild
      rfl
  · intro hconv
    rw [hconv]
    rfl

theorem build_of_ofCst_eq_ok {source : String} {tree : Cst} {program : Ast}
    (h : ofCst source tree = .ok program) : build source tree = .ok program := by
  rw [ofCst] at h
  split at h
  · cases h
  · exact h

end Ast

namespace Detection

/-- The detection in a tree that has been converted. -/
def ofProgram (options : Options) (source : String) (program : Ast) : Detection :=
  let walk := Walk.ofTree standardRules { source, options } program
  { findings := walk.collector.findings.toList, visited := walk.visited, kind := program.kind }

theorem ofSource_eq (options : Options) (source : String) (tree : Cst) :
    ofSource options source tree =
      if tree.label.hasError then .error (Ast.faultFailure source tree)
      else match Ast.conv source tree with
        | .ok nodes => .ok (ofProgram options source (nodes.headD (Ast.emptyProgram source)))
        | .error e => .error (.invalid e) := by
  rw [ofSource, Ast.ofCst, Ast.build_eq, Ast.convert]
  split
  · rfl
  · cases Ast.conv source tree with
    | ok nodes => rfl
    | error e => rfl

/-- The options have no part in the conversion. -/
theorem ofSource_eq_map (options : Options) (source : String) (tree : Cst) :
    ofSource options source tree = (Ast.ofCst source tree).map (ofProgram options source) := by
  rw [ofSource]
  cases Ast.ofCst source tree with
  | ok program => rfl
  | error e => rfl

theorem ofSource_eq_ok {options : Options} {source : String} {tree : Cst} {d : Detection}
    (h : ofSource options source tree = .ok d) :
    ∃ program, Ast.build source tree = .ok program ∧ d = ofProgram options source program := by
  rw [ofSource_eq_map] at h
  cases hcst : Ast.ofCst source tree with
  | error failure =>
    rw [hcst] at h
    cases h
  | ok program =>
    rw [hcst] at h
    exact ⟨program, Ast.build_of_ofCst_eq_ok hcst, (Except.ok.inj h).symm⟩

theorem ofProgram_eq (options : Options) (source : String) (program : Ast) :
    ofProgram options source program =
      { findings := ((program.preorder.map Ast.head).filterMap
          (Ast.Head.finding? options source)).take options.resultLimit.toNat
        visited := program.preorder.length
        kind := program.kind } := by
  rw [ofProgram, Walk.findings_ofTree, Ast.map_findingOf_match?, Walk.visited_ofTree]

/-- The findings of a detection are what the sites of the tree show, in order, up to
    the limit. -/
theorem findings_ofSource {options : Options} {source : String} {tree : Cst} {d : Detection}
    (htree : tree.ClashFree) (h : ofSource options source tree = .ok d) :
    d.findings = ((Ast.sites tree).filterMap (Ast.Site.finding? options source)).take
      options.resultLimit.toNat := by
  rw [ofSource_eq] at h
  split at h
  · cases h
  · cases hconv : Ast.conv source tree with
    | error e =>
      rw [hconv] at h
      cases h
    | ok nodes =>
      rw [hconv] at h
      cases h
      rw [ofProgram_eq]
      show List.take _ _ = List.take _ _
      congr 1
      rcases Ast.conv_eq_ok hconv with ⟨rfl, hsites⟩ | ⟨node, rfl⟩
      · -- The empty program shows nothing.
        rw [hsites]
        rfl
      · have hheads := Ast.heads_of_conv_eq_ok hconv
        rw [Walk.preorders_singleton] at hheads
        rw [List.headD_cons, hheads, List.filterMap_map]
        apply List.filterMap_congr
        intro site hsite
        exact Ast.finding?_head htree options source hsite

/-- A tree without faults and without a refusal among its sites is detected in. -/
theorem exists_ofSource {source : String} {tree : Cst} (options : Options)
    (hfault : tree.label.hasError = false)
    (hsites : ∀ site ∈ Ast.sites tree, site.origin.refusal? source = none) :
    ∃ d, ofSource options source tree = .ok d := by
  have hheads := Ast.headsOf_conv source tree
  have hnone : ((Ast.sites tree).map Ast.Site.origin).findSome? (Ast.Origin.refusal? source) =
      none := by
    rw [List.findSome?_eq_none_iff]
    intro origin horigin
    obtain ⟨site, hsite, rfl⟩ := List.mem_map.mp horigin
    exact hsites site hsite
  rw [Ast.verdict, hnone] at hheads
  rw [ofSource_eq, hfault]
  cases hconv : Ast.conv source tree with
  | error e =>
    rw [hconv] at hheads
    cases hheads
  | ok nodes => exact ⟨_, rfl⟩

end Detection

end EsFeatures
